import Mathlib.Data.List.Forall2
import StepScript.Grammar.Program
import StepScript.Proofs.Tree.Alike

/-!
# Reading carries spans along

A reader decides by the kinds of tokens and takes their spellings and values over; it joins spans but never looks at one.
So from tokens that differ only in their spans it reads trees that differ only in their spans, or meets the same fault
near the same token.

`Reader.Alike R P r r'` is the logical relation behind this: from tokens with related spans, both readers come back with
results in `P` and with related tokens left, or both fail alike. It holds of every reader with itself
(`expressions_alike`, `statements_alike`) if joining related spans gives related spans, and then of reading a program
(`parse_alike`).
-/

namespace StepScript

/-- The same token, with related spans. -/
structure Token.Alike (R : Span → Span → Prop) (t t' : Token) : Prop where
  kind : t.kind = t'.kind
  lexeme : t.lexeme = t'.lexeme
  payload : t.payload = t'.payload
  span : R t.span t'.span

/-- The same fault near the same token. -/
structure Diagnostic.Alike (d d' : Diagnostic) : Prop where
  fault : d.fault = d'.fault
  near : d.near = d'.near

/-- Both readings succeed with related results, or both fail alike. -/
inductive Reading.Alike {α : Type} (R : Span → Span → Prop) (P : α → α → Prop) : Reading α → Reading α → Prop
  | done {a a' : α} {c c' : Cursor} : P a a' → List.Forall₂ (Token.Alike R) c.ahead c'.ahead →
      Reading.Alike R P (.done a c) (.done a' c')
  | failed {d d' : Diagnostic} {c c' : Cursor} : d.Alike d' → Reading.Alike R P (.failed d c) (.failed d' c')
  | exhausted : Reading.Alike R P .exhausted .exhausted

/-- From tokens with related spans, the readers do alike. -/
def Reader.Alike {α : Type} (R : Span → Span → Prop) (P : α → α → Prop) (r r' : Reader α) : Prop :=
  ∀ c c' : Cursor, List.Forall₂ (Token.Alike R) c.ahead c'.ahead → Reading.Alike R P (r c) (r' c')

/-- Joining related spans gives related spans. -/
structure Span.Joining (R : Span → Span → Prop) : Prop where
  through : ∀ {s s' t t' : Span}, R s s' → R t t' → R (s.through t) (s'.through t')

/-! ## Rules -/

section Cursors

variable {R : Span → Span → Prop} {c c' : Cursor}

/-- A fault at the next token, or at the end. -/
theorem diagnose_alike (h : List.Forall₂ (Token.Alike R) c.ahead c'.ahead) (f : GrammarFault) :
    (c.diagnose f).Alike (c'.diagnose f) := by
  obtain ⟨latest, ts⟩ := c
  obtain ⟨latest', ts'⟩ := c'
  cases h with
  | nil => cases latest <;> cases latest' <;> exact ⟨rfl, rfl⟩
  | cons ht _ => exact ⟨rfl, by simp only [Cursor.diagnose, Diagnostic.grammar, ht.lexeme]⟩

theorem atEnd_alike (h : List.Forall₂ (Token.Alike R) c.ahead c'.ahead) : c.atEnd = c'.atEnd := by
  obtain ⟨latest, ts⟩ := c
  obtain ⟨latest', ts'⟩ := c'
  cases h <;> rfl

end Cursors

namespace Reader.Alike

variable {α β : Type} {R : Span → Span → Prop} {P : α → α → Prop} {Q : β → β → Prop}

theorem pure {a a' : α} (h : P a a') : Reader.Alike R P (Pure.pure a) (Pure.pure a') := fun _ _ hc => .done h hc

theorem bind {r r' : Reader α} {f f' : α → Reader β} (hr : Reader.Alike R P r r')
    (hf : ∀ a a', P a a' → Reader.Alike R Q (f a) (f' a')) : Reader.Alike R Q (r >>= f) (r' >>= f') := by
  intro c c' hc
  show Reading.Alike R Q (Reader.bind r f c) (Reader.bind r' f' c')
  unfold Reader.bind
  have hfirst := hr c c' hc
  generalize r c = x at hfirst
  generalize r' c' = x' at hfirst
  cases hfirst with
  | done ha hc => exact hf _ _ ha _ _ hc
  | failed hd => exact .failed hd
  | exhausted => exact .exhausted

theorem map {r r' : Reader α} {f : α → β} (hr : Reader.Alike R P r r') (hf : ∀ a a', P a a' → Q (f a) (f a')) :
    Reader.Alike R Q (f <$> r) (f <$> r') := by
  show Reader.Alike R Q (r >>= fun a => Pure.pure (f a)) (r' >>= fun a => Pure.pure (f a))
  exact bind hr fun a a' ha => pure (hf a a' ha)

theorem exhausted : Reader.Alike R P Reader.exhausted Reader.exhausted := fun _ _ _ => .exhausted

theorem fault {f : GrammarFault} : Reader.Alike R P (Reader.fault f) (Reader.fault f) :=
  fun _ _ hc => .failed (diagnose_alike hc f)

theorem faultAt {t t' : Token} {f : GrammarFault} (ht : t.Alike R t') :
    Reader.Alike R P (Reader.faultAt t f) (Reader.faultAt t' f) :=
  fun _ _ _ => .failed ⟨rfl, by simp only [Diagnostic.grammar, ht.lexeme]⟩

theorem sees (kind : TokenKind) : Reader.Alike R Eq (Reader.sees kind) (Reader.sees kind) := by
  rintro ⟨latest, ts⟩ ⟨latest', ts'⟩ hc
  refine .done ?_ hc
  cases hc with
  | nil => rfl
  | cons ht _ => simp only [Cursor.sees, ht.kind]

theorem atEnd : Reader.Alike R Eq Reader.atEnd Reader.atEnd := fun _ _ hc => .done (atEnd_alike hc) hc

theorem expect {kind : TokenKind} {f : GrammarFault} :
    Reader.Alike R (Token.Alike R) (Reader.expect kind f) (Reader.expect kind f) := by
  rintro ⟨latest, ts⟩ ⟨latest', ts'⟩ hc
  have hd := diagnose_alike hc f
  cases hc with
  | nil => exact .failed hd
  | @cons t t' ts ts' ht hts =>
    unfold Reader.expect
    by_cases hk : t.kind = kind
    · simp only [if_pos hk, if_pos (ht.kind.symm.trans hk)]
      exact .done ht hts
    · have hk' : t'.kind ≠ kind := fun h => hk (ht.kind.trans h)
      simp only [if_neg hk, if_neg hk']
      exact .failed hd

/-- A token that may be taken, and what comes after it. -/
theorem accept_bind {kind : TokenKind} {k k' : Option Token → Reader β} (hn : Reader.Alike R Q (k none) (k' none))
    (hs : ∀ t t', t.Alike R t' → Reader.Alike R Q (k (some t)) (k' (some t'))) :
    Reader.Alike R Q (Reader.accept kind >>= k) (Reader.accept kind >>= k') := by
  have ha : Reader.Alike R (Option.Rel (Token.Alike R)) (Reader.accept kind) (Reader.accept kind) := by
    rintro ⟨latest, ts⟩ ⟨latest', ts'⟩ hc
    cases hc with
    | nil => exact .done .none .nil
    | @cons t t' ts ts' ht hts =>
      unfold Reader.accept
      by_cases hk : t.kind = kind
      · simp only [if_pos hk, if_pos (ht.kind.symm.trans hk)]
        exact .done (.some ht) hts
      · have hk' : t'.kind ≠ kind := fun h => hk (ht.kind.trans h)
        simp only [if_neg hk, if_neg hk']
        exact .done .none (.cons ht hts)
  refine bind ha fun o o' ho => ?_
  cases ho with
  | none => exact hn
  | some ht => exact hs _ _ ht

/-- A token that may be taken for something, and what comes after it. -/
theorem acceptAs_bind {classify : TokenKind → Option α} {k k' : Option (α × Token) → Reader β}
    (hn : Reader.Alike R Q (k none) (k' none))
    (hs : ∀ a t t', t.Alike R t' → Reader.Alike R Q (k (some (a, t))) (k' (some (a, t')))) :
    Reader.Alike R Q (Reader.acceptAs classify >>= k) (Reader.acceptAs classify >>= k') := by
  have ha : Reader.Alike R (Option.Rel fun x y => x.1 = y.1 ∧ x.2.Alike R y.2) (Reader.acceptAs classify)
      (Reader.acceptAs classify) := by
    rintro ⟨latest, ts⟩ ⟨latest', ts'⟩ hc
    cases hc with
    | nil => exact .done .none .nil
    | @cons t t' ts ts' ht hts =>
      unfold Reader.acceptAs
      dsimp only
      rw [← ht.kind]
      cases classify t.kind with
      | none => exact .done .none (.cons ht hts)
      | some a => exact .done (.some ⟨rfl, ht⟩) hts
  refine bind ha fun o o' ho => ?_
  cases ho with
  | none => exact hn
  | @some x y hxy =>
    obtain ⟨a, t⟩ := x
    obtain ⟨a', t'⟩ := y
    obtain ⟨rfl, ht⟩ := hxy
    exact hs a t t' ht

end Reader.Alike

namespace Grammar

open Reader

/-! ## Expressions -/

section Expressions

variable {R : Span → Span → Prop}

theorem join_alike (hR : Span.Joining R) {left left' right right' : Expr} (hl : left.Alike R left')
    (hr : right.Alike R right') (joint : Joint) : (joint.join left right).Alike R (joint.join left' right') := by
  have hspan := hR.through hl.span hr.span
  cases joint with
  | logical op => exact .logical hl hr hspan
  | binary op => exact .binary hl hr hspan

theorem assignTo_alike (hR : Span.Joining R) {target target' value value' : Expr} {equals equals' : Token}
    (ht : target.Alike R target') (he : equals.Alike R equals') (hv : value.Alike R value') :
    Reader.Alike R (Expr.Alike R) (assignTo target equals value) (assignTo target' equals' value') := by
  have hspan := hR.through ht.span hv.span
  unfold assignTo
  cases ht with
  | name => exact .pure (.assign hv hspan)
  | property ho => exact .pure (.setProperty ho hv hspan)
  | element ho hi => exact .pure (.setElement ho hi hv hspan)
  | _ => exact .faultAt he

/-- The same opening, with an expression that is alike if it is a whole one. -/
inductive Opening.Alike (R : Span → Span → Prop) : Opening → Opening → Prop
  | whole {e e' : Expr} : e.Alike R e' → Opening.Alike R (.whole e) (.whole e')
  | group : Opening.Alike R .group .group
  | array : Opening.Alike R .array .array
  | hollow : Opening.Alike R .hollow .hollow
  | none : Opening.Alike R .none .none

theorem opening_alike {t t' : Token} (h : t.Alike R t') : (opening t).Alike R (opening t') := by
  unfold opening
  rw [← h.kind, ← h.payload, ← h.lexeme]
  have hs := h.span
  split
  · exact .whole (.literal hs)
  · exact .whole (.literal hs)
  · exact .whole (.literal hs)
  · split
    · exact .whole (.literal hs)
    · exact .whole (.literal hs)
    · exact .hollow
  · split
    · exact .whole (.literal hs)
    · exact .whole (.literal hs)
    · exact .hollow
  · exact .whole (.name hs)
  · exact .whole (.name hs)
  · exact .whole (.name hs)
  · exact .whole (.name hs)
  · exact .group
  · exact .array
  · exact .none

theorem takeOpening_alike :
    Reader.Alike R (fun x y => x.1.Alike R y.1 ∧ x.2.Alike R y.2) takeOpening takeOpening := by
  rintro ⟨latest, ts⟩ ⟨latest', ts'⟩ hc
  have hd := fun f => diagnose_alike hc f
  cases hc with
  | nil => exact .failed (hd _)
  | @cons t t' ts ts' ht hts =>
    have ho := opening_alike ht
    unfold takeOpening
    dsimp only
    rw [← ht.kind]
    generalize opening t = o at ho
    generalize opening t' = o' at ho
    cases ho with
    | whole he => exact .done ⟨.whole he, ht⟩ hts
    | group => exact .done ⟨.group, ht⟩ hts
    | array => exact .done ⟨.array, ht⟩ hts
    | hollow => exact .done ⟨.hollow, ht⟩ hts
    | none => exact .failed (hd _)

/-- The readers of expressions do alike. -/
structure ExpressionsAlike (R : Span → Span → Prop) (n : Nat) : Prop where
  expression : Reader.Alike R (Expr.Alike R) (expression n) (expression n)
  tier : ∀ t, Reader.Alike R (Expr.Alike R) (tier n t) (tier n t)
  operand : ∀ t, Reader.Alike R (Expr.Alike R) (operand n t) (operand n t)
  tierRest : ∀ t {left left'}, left.Alike R left' →
    Reader.Alike R (Expr.Alike R) (tierRest n t left) (tierRest n t left')
  signed : Reader.Alike R (Expr.Alike R) (signed n) (signed n)
  suffixes : ∀ {e e'}, e.Alike R e' → Reader.Alike R (Expr.Alike R) (suffixes n e) (suffixes n e')
  listUntil : ∀ close room, Reader.Alike R (Expr.AllAlike R) (listUntil n close room) (listUntil n close room)
  list : ∀ room, Reader.Alike R (Expr.AllAlike R) (list n room) (list n room)
  primary : Reader.Alike R (Expr.Alike R) (primary n) (primary n)

section Step

variable {n : Nat} (hR : Span.Joining R) (ih : ExpressionsAlike R n)
include hR ih

theorem alike_expression : Reader.Alike R (Expr.Alike R) (expression (n + 1)) (expression (n + 1)) := by
  rw [expression]
  refine .bind (ih.tier .or) fun target target' ht => .accept_bind (.pure ht) fun equals equals' he => ?_
  exact .bind ih.expression fun value value' hv => assignTo_alike hR ht he hv

omit hR in
theorem alike_tier (t : Tier) : Reader.Alike R (Expr.Alike R) (tier (n + 1) t) (tier (n + 1) t) := by
  rw [tier]
  exact .bind (ih.operand t) fun first first' hf => ih.tierRest t hf

omit hR in
theorem alike_operand (t : Tier) : Reader.Alike R (Expr.Alike R) (operand (n + 1) t) (operand (n + 1) t) := by
  rw [operand]
  split
  · exact ih.tier _
  · exact ih.signed

theorem alike_tierRest (t : Tier) {left left' : Expr} (hl : left.Alike R left') :
    Reader.Alike R (Expr.Alike R) (tierRest (n + 1) t left) (tierRest (n + 1) t left') := by
  rw [tierRest, tierRest]
  refine .acceptAs_bind (.pure hl) fun joint o o' _ => ?_
  exact .bind (ih.operand t) fun right right' hr => ih.tierRest t (join_alike hR hl hr joint)

theorem alike_signed : Reader.Alike R (Expr.Alike R) (signed (n + 1)) (signed (n + 1)) := by
  rw [signed]
  refine .acceptAs_bind ?_ fun op t t' ht => ?_
  · exact .bind ih.primary fun first first' hf => ih.suffixes hf
  · exact .bind ih.signed fun inner inner' hi => .pure (.unary hi (hR.through ht.span hi.span))

theorem alike_suffixes {e e' : Expr} (he : e.Alike R e') :
    Reader.Alike R (Expr.Alike R) (suffixes (n + 1) e) (suffixes (n + 1) e') := by
  rw [suffixes, suffixes]
  refine .acceptAs_bind (.pure he) fun suffix o o' _ => ?_
  cases suffix with
  | arguments =>
    refine .bind (ih.listUntil _ _) fun args args' ha => .bind .expect fun close close' hc => ?_
    exact ih.suffixes (.call he ha (hR.through he.span hc.span))
  | index =>
    refine .bind ih.expression fun index index' hi => .bind .expect fun close close' hc => ?_
    exact ih.suffixes (.element he hi (hR.through he.span hc.span))
  | property =>
    refine .bind .expect fun name name' hn => ?_
    rw [hn.lexeme]
    exact ih.suffixes (.property he (hR.through he.span hn.span))

omit hR in
theorem alike_listUntil (close : TokenKind) (room : Option Nat) :
    Reader.Alike R (Expr.AllAlike R) (listUntil (n + 1) close room) (listUntil (n + 1) close room) := by
  rw [listUntil]
  refine .bind (.sees close) fun b b' hb => ?_
  subst hb
  cases b with
  | true => exact .pure .nil
  | false => exact ih.list room

omit hR in
theorem alike_list (room : Option Nat) :
    Reader.Alike R (Expr.AllAlike R) (list (n + 1) room) (list (n + 1) room) := by
  by_cases hz : room = some 0
  · rw [hz, list]
    exact .fault
  · rw [list]
    · refine .bind ih.expression fun e e' he => .accept_bind (.pure (.cons he .nil)) fun comma comma' _ => ?_
      exact .bind (ih.list _) fun es es' hes => .pure (.cons he hes)
    · exact hz

theorem alike_primary : Reader.Alike R (Expr.Alike R) (primary (n + 1)) (primary (n + 1)) := by
  rw [primary]
  refine .bind takeOpening_alike fun x y hxy => ?_
  obtain ⟨o, t⟩ := x
  obtain ⟨o', t'⟩ := y
  obtain ⟨ho, ht⟩ := hxy
  cases ho with
  | whole he => exact .pure he
  | group =>
    refine .bind ih.expression fun inner inner' hi => .bind .expect fun close close' hc => ?_
    exact .pure (.group hi (hR.through ht.span hc.span))
  | array =>
    refine .bind (ih.listUntil _ _) fun items items' hi => .bind .expect fun close close' hc => ?_
    exact .pure (.array hi (hR.through ht.span hc.span))
  | hollow => exact .faultAt ht
  | none => exact .faultAt ht

end Step

/-- **Expressions are read alike** from tokens that differ in their spans. -/
theorem expressions_alike (hR : Span.Joining R) : ∀ n, ExpressionsAlike R n
  | 0 => by
    constructor <;> intros <;>
      simp only [expression, tier, operand, tierRest, signed, suffixes, listUntil, list, primary] <;> exact .exhausted
  | n + 1 =>
    have ih := expressions_alike hR n
    { expression := alike_expression hR ih
      tier := alike_tier ih
      operand := alike_operand ih
      tierRest := alike_tierRest hR ih
      signed := alike_signed hR ih
      suffixes := alike_suffixes hR ih
      listUntil := alike_listUntil ih
      list := alike_list ih
      primary := alike_primary hR ih }

end Expressions

/-! ## Statements -/

section Statements

variable {R : Span → Span → Prop}

theorem statementOf_alike {e e' : Expr} {s s' : Span} (he : e.Alike R e') (hs : R s s') :
    (statementOf e s).Alike R (statementOf e' s') := by
  unfold statementOf
  cases he with
  | assign hv => exact .assign hv hs
  | literal h => exact .expr (.literal h) hs
  | name h => exact .expr (.name h) hs
  | binary hl hr h => exact .expr (.binary hl hr h) hs
  | logical hl hr h => exact .expr (.logical hl hr h) hs
  | unary ho h => exact .expr (.unary ho h) hs
  | call hc ha h => exact .expr (.call hc ha h) hs
  | group hi h => exact .expr (.group hi h) hs
  | array hi h => exact .expr (.array hi h) hs
  | property ho h => exact .expr (.property ho h) hs
  | element ho hi h => exact .expr (.element ho hi h) hs
  | setProperty ho hv h => exact .expr (.setProperty ho hv h) hs
  | setElement ho hi hv h => exact .expr (.setElement ho hi hv h) hs

theorem forLoop_alike (hR : Span.Joining R) {keyword keyword' : Span} {start start' : Option Stmt}
    {condition condition' step step' : Option Expr} {body body' : Stmt} (hk : R keyword keyword')
    (hs : Option.Rel (Stmt.Alike R) start start') (hc : Option.Rel (Expr.Alike R) condition condition')
    (ht : Option.Rel (Expr.Alike R) step step') (hb : body.Alike R body') :
    (forLoop keyword start condition step body).Alike R (forLoop keyword' start' condition' step' body') := by
  have hspan := hR.through hk hb.span
  have hcondition : (condition.getD (.literal (.boolean true) keyword)).Alike R
      (condition'.getD (.literal (.boolean true) keyword')) := by
    cases hc with
    | none => exact .literal hk
    | some hc => exact hc
  have hloop : ∀ {turn turn' : Stmt}, turn.Alike R turn' →
      (Stmt.loop (condition.getD (.literal (.boolean true) keyword)) turn (keyword.through body.span)).Alike R
        (.loop (condition'.getD (.literal (.boolean true) keyword')) turn' (keyword'.through body'.span)) :=
    fun h => .loop hcondition h hspan
  unfold forLoop
  cases ht with
  | none =>
    cases hs with
    | none => exact hloop hb
    | some hs => exact .block (.cons hs (.cons (hloop hb) .nil)) hspan
  | some ht =>
    have hturn := Stmt.Alike.block (.cons hb (.cons (statementOf_alike ht ht.span) .nil)) hspan
    cases hs with
    | none => exact hloop hturn
    | some hs => exact .block (.cons hs (.cons (hloop hturn) .nil)) hspan

theorem alike_parameters : ∀ room, Reader.Alike R Eq (parameters room) (parameters room)
  | 0 => by
    rw [parameters]
    exact .fault
  | room + 1 => by
    rw [parameters]
    refine .bind .expect fun name name' hn => .accept_bind (.pure (by rw [hn.lexeme])) fun comma comma' _ => ?_
    exact .bind (alike_parameters room) fun names names' hs => .pure (by rw [hn.lexeme, hs])

section Parts

variable (hR : Span.Joining R) (n : Nat)
include hR

theorem alike_optionalUntil (close : TokenKind) :
    Reader.Alike R (Option.Rel (Expr.Alike R)) (optionalUntil n close) (optionalUntil n close) := by
  unfold optionalUntil
  refine .bind (.sees close) fun b b' hb => ?_
  subst hb
  cases b with
  | true => exact .pure .none
  | false => exact .map (expressions_alike hR n).expression fun e e' he => .some he

theorem alike_expressionStatement :
    Reader.Alike R (Stmt.Alike R) (expressionStatement n) (expressionStatement n) := by
  unfold expressionStatement
  refine .bind (expressions_alike hR n).expression fun e e' he => .bind .expect fun close close' hc => ?_
  exact .pure (statementOf_alike he (hR.through he.span hc.span))

theorem alike_forStart : Reader.Alike R (Option.Rel (Stmt.Alike R)) (forStart n) (forStart n) := by
  unfold forStart
  refine .accept_bind ?_ fun _ _ _ => .pure .none
  exact .map (alike_expressionStatement hR n) fun s s' hs => .some hs

variable {keyword keyword' : Token} (hk : keyword.Alike R keyword')
include hk

theorem alike_returnStatement :
    Reader.Alike R (Stmt.Alike R) (returnStatement n keyword) (returnStatement n keyword') := by
  unfold returnStatement
  refine .bind (alike_optionalUntil hR n _) fun value value' hv => .bind .expect fun close close' hc => ?_
  exact .pure (.leave hv (hR.through hk.span hc.span))

theorem alike_printStatement (newline : Bool) :
    Reader.Alike R (Stmt.Alike R) (printStatement n newline keyword) (printStatement n newline keyword') := by
  unfold printStatement
  rw [hk.lexeme]
  refine .bind .expect fun _ _ _ => .bind (expressions_alike hR n).expression fun e e' he => ?_
  refine .bind .expect fun _ _ _ => .bind .expect fun close close' hc => ?_
  exact .pure (.print he (hR.through hk.span hc.span))

theorem alike_inputStatement :
    Reader.Alike R (Stmt.Alike R) (inputStatement n keyword) (inputStatement n keyword') := by
  unfold inputStatement
  rw [hk.lexeme]
  refine .bind .expect fun _ _ _ => .bind (alike_optionalUntil hR n _) fun prompt prompt' hp => ?_
  refine .bind .expect fun _ _ _ => .bind .expect fun close close' hc => ?_
  exact .pure (.input hp (hR.through hk.span hc.span))

end Parts

/-- The readers of statements do alike. -/
structure StatementsAlike (R : Span → Span → Prop) (n : Nat) : Prop where
  declaration : Reader.Alike R (Stmt.Alike R) (declaration n) (declaration n)
  functionDeclaration : ∀ {keyword keyword'}, keyword.Alike R keyword' →
    Reader.Alike R (Stmt.Alike R) (functionDeclaration n keyword) (functionDeclaration n keyword')
  blockRest : Reader.Alike R (fun x y => Stmt.AllAlike R x.1 y.1 ∧ x.2.Alike R y.2) (blockRest n) (blockRest n)
  statement : Reader.Alike R (Stmt.Alike R) (statement n) (statement n)

section Step

variable {n : Nat} (hR : Span.Joining R) (ih : StatementsAlike R n)
include ih

theorem alike_declaration : Reader.Alike R (Stmt.Alike R) (declaration (n + 1)) (declaration (n + 1)) := by
  rw [declaration]
  exact .accept_bind ih.statement fun keyword keyword' hk => ih.functionDeclaration hk

theorem alike_blockRest : Reader.Alike R (fun x y => Stmt.AllAlike R x.1 y.1 ∧ x.2.Alike R y.2)
    (blockRest (n + 1)) (blockRest (n + 1)) := by
  rw [blockRest]
  refine .accept_bind (.bind .atEnd fun b b' hb => ?_) fun close close' hc => .pure ⟨.nil, hc⟩
  subst hb
  cases b with
  | true => exact .fault
  | false =>
    refine .bind ih.declaration fun s s' hs => .bind ih.blockRest fun x y hxy => ?_
    exact .pure ⟨.cons hs hxy.1, hxy.2⟩

include hR

theorem alike_functionDeclaration {keyword keyword' : Token} (hk : keyword.Alike R keyword') :
    Reader.Alike R (Stmt.Alike R) (functionDeclaration (n + 1) keyword) (functionDeclaration (n + 1) keyword') := by
  rw [functionDeclaration, functionDeclaration]
  refine .bind .expect fun name name' hn => .bind .expect fun _ _ _ => .bind (.sees _) fun b b' hb => ?_
  subst hb
  rw [hn.lexeme]
  -- The rest is the same whether there are parameters or not.
  have tail : ∀ params params' : List String, params = params' → Reader.Alike R (Stmt.Alike R)
      (expect .rightParen .parametersClose >>= fun _ => expect .leftBrace .functionBody >>= fun _ =>
        blockRest n >>= fun b => pure (Stmt.function name'.lexeme params b.1 (keyword.span.through b.2.span)))
      (expect .rightParen .parametersClose >>= fun _ => expect .leftBrace .functionBody >>= fun _ =>
        blockRest n >>= fun b => pure (Stmt.function name'.lexeme params' b.1 (keyword'.span.through b.2.span))) := by
    rintro params _ rfl
    refine .bind .expect fun _ _ _ => .bind .expect fun _ _ _ => .bind ih.blockRest fun x y hxy => ?_
    exact .pure (.function hxy.1 (hR.through hk.span hxy.2.span))
  cases b with
  | true => exact .bind (.pure rfl) tail
  | false => exact .bind (alike_parameters _) tail

theorem alike_statement : Reader.Alike R (Stmt.Alike R) (statement (n + 1)) (statement (n + 1)) := by
  have hexpr := (expressions_alike hR n).expression
  rw [statement]
  refine .acceptAs_bind (alike_expressionStatement hR n) fun lead keyword keyword' hk => ?_
  cases lead with
  | ifLead =>
    refine .bind .expect fun _ _ _ => .bind hexpr fun condition condition' hc => ?_
    refine .bind .expect fun _ _ _ => .bind ih.statement fun yes yes' hy => ?_
    refine .accept_bind (.pure (.branch hc hy (hR.through hk.span hy.span))) fun _ _ _ => ?_
    exact .bind ih.statement fun no no' hn => .pure (.choice hc hy hn (hR.through hk.span hn.span))
  | whileLead =>
    refine .bind .expect fun _ _ _ => .bind hexpr fun condition condition' hc => ?_
    refine .bind .expect fun _ _ _ => .bind ih.statement fun body body' hb => ?_
    exact .pure (.loop hc hb (hR.through hk.span hb.span))
  | forLead =>
    refine .bind .expect fun _ _ _ => .bind (alike_forStart hR n) fun start start' hs => ?_
    refine .bind (alike_optionalUntil hR n _) fun condition condition' hc => .bind .expect fun _ _ _ => ?_
    refine .bind (alike_optionalUntil hR n _) fun step step' ht => .bind .expect fun _ _ _ => ?_
    exact .bind ih.statement fun body body' hb => .pure (forLoop_alike hR hk.span hs hc ht hb)
  | returnLead => exact alike_returnStatement hR n hk
  | printLead newline => exact alike_printStatement hR n hk newline
  | inputLead => exact alike_inputStatement hR n hk
  | blockLead => exact .bind ih.blockRest fun x y hxy => .pure (.block hxy.1 (hR.through hk.span hxy.2.span))

end Step

/-- **Statements are read alike** from tokens that differ in their spans. -/
theorem statements_alike (hR : Span.Joining R) : ∀ n, StatementsAlike R n
  | 0 => by
    constructor <;> intros <;> simp only [declaration, functionDeclaration, blockRest, statement] <;> exact .exhausted
  | n + 1 =>
    have ih := statements_alike hR n
    { declaration := alike_declaration ih
      functionDeclaration := alike_functionDeclaration hR ih
      blockRest := alike_blockRest ih
      statement := alike_statement hR ih }

end Statements

/-! ## Programs -/

/-- The same program with related spans, or the same mistake. -/
inductive ProgramsAlike (R : Span → Span → Prop) : Except Diagnostic Program → Except Diagnostic Program → Prop
  | ok {p p' : Program} : Stmt.AllAlike R p p' → ProgramsAlike R (.ok p) (.ok p')
  | error {d d' : Diagnostic} : d.Alike d' → ProgramsAlike R (.error d) (.error d')

section Programs

variable {R : Span → Span → Prop}

/-- Declaration by declaration, programs are read alike. -/
theorem declarations_alike (hR : Span.Joining R) (n : Nat) : ∀ (turns : Nat) {done done' : List Stmt} {c c' : Cursor},
    Stmt.AllAlike R done done' → List.Forall₂ (Token.Alike R) c.ahead c'.ahead →
      ProgramsAlike R (declarations n done turns c) (declarations n done' turns c')
  | 0, _, _, _, _, hd, _ => .ok hd.reverse
  | turns + 1, done, done', c, c', hd, hc => by
    rw [declarations, declarations, ← atEnd_alike hc]
    by_cases he : c.atEnd = true
    · rw [if_pos he, if_pos he]
      exact .ok hd.reverse
    · rw [if_neg he, if_neg he]
      have hfirst := (statements_alike hR n).declaration c c' hc
      have hstuck := diagnose_alike hc (.expression .nothing)
      unfold nextDeclaration
      generalize declaration n c = x at hfirst
      generalize declaration n c' = x' at hfirst
      cases hfirst with
      | done hs hc => exact declarations_alike hR n turns (.cons hs hd) hc
      | failed h => exact .error h
      | exhausted => exact .error hstuck

theorem takeWhile_alike {ts ts' : List Token} (h : List.Forall₂ (Token.Alike R) ts ts') :
    List.Forall₂ (Token.Alike R) (ts.takeWhile fun t => !t.isEof) (ts'.takeWhile fun t => !t.isEof) := by
  induction h with
  | nil => exact .nil
  | @cons t t' ts ts' ht _ ih =>
    have heof : t.isEof = t'.isEof := by rw [Token.isEof, Token.isEof, ht.kind]
    rw [List.takeWhile_cons, List.takeWhile_cons, ← heof]
    cases t.isEof with
    | true => exact .nil
    | false => exact .cons ht ih

/-- **Spans are carried along.** From tokens that differ only in their spans, the same program is read but for its
spans, which are related if those of the tokens before the end are; or there is the same mistake near the same token. -/
theorem parse_alike (hR : Span.Joining R) {tokens tokens' : List Token}
    (h : List.Forall₂ (Token.Alike R) (tokens.takeWhile fun t => !t.isEof) (tokens'.takeWhile fun t => !t.isEof)) :
    ProgramsAlike R (parse tokens) (parse tokens') := by
  unfold parse
  dsimp only [Cursor.ofTokens]
  rw [h.length_eq]
  exact declarations_alike hR _ _ .nil h

end Programs

end Grammar

theorem compile_of_scan {source : String} {tokens : List Token} (h : scan source = .ok tokens) :
    compile source = Grammar.parse tokens := by
  rw [compile, h]
  rfl

end StepScript
