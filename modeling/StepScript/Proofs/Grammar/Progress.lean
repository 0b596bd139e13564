import StepScript.Proofs.Grammar.Places
import StepScript.Proofs.Grammar.Recovery

/-!
# Reading past mistakes makes progress

The places in a list of tokens are numbered (`placeAt`). A reader that starts at one of them ends at one that is not
before it, and a mistake is met at a token that it has taken, at the next one, or at the end (`Advances`, `MetAt`); there
is one rule for each way to put readers together, then one lemma for each reader, by induction on the bound.

Reading past mistakes goes in turns: each one starts further on than the one before, and the last one ends at the end of
the tokens (`Turns`). Since what is skipped behind a mistake includes the token that it was met at, or there is nothing
left, the mistakes are met further and further on as well (`Turns.marks`).
-/

namespace StepScript

/-! ## Places and mistakes by number -/

/-- The place before the token with a number. -/
def placeAt (ts : List Token) (k : Nat) : Cursor := ⟨(ts.take k).getLast?, ts.drop k⟩

/-- The mistake is met at the token with a number, or at the end. -/
inductive MetAt (ts : List Token) : Nat → Diagnostic → Prop
  | token {k : Nat} {t : Token} {f : GrammarFault} : ts[k]? = some t →
      MetAt ts k (.grammar t.span (.lexeme t.lexeme) f)
  | finish {f : GrammarFault} : MetAt ts ts.length ((placeAt ts ts.length).diagnose f)

section Places

variable {ts : List Token} {k : Nat}

theorem ahead_placeAt {t : Token} (h : ts[k]? = some t) : (placeAt ts k).ahead = t :: (placeAt ts (k + 1)).ahead := by
  obtain ⟨hk, rfl⟩ := List.getElem?_eq_some_iff.1 h
  exact List.drop_eq_getElem_cons hk

theorem placeAt_succ {t : Token} (h : ts[k]? = some t) : placeAt ts (k + 1) = ⟨some t, (placeAt ts (k + 1)).ahead⟩ := by
  rw [placeAt, List.take_add_one, h, Option.toList_some, List.getLast?_concat]

theorem ahead_length : (placeAt ts ts.length).ahead = [] := List.drop_length

/-- No token is left at the end, and at every other place there is one. -/
theorem placeAt_cases (h : k ≤ ts.length) : k = ts.length ∨ ∃ t, ts[k]? = some t := by
  rcases Nat.lt_or_ge k ts.length with hk | hk
  · exact .inr ⟨ts[k], List.getElem?_eq_getElem hk⟩
  · exact .inl (Nat.le_antisymm h hk)

theorem lt_length_of_getElem? {t : Token} (h : ts[k]? = some t) : k < ts.length :=
  (List.getElem?_eq_some_iff.1 h).1

/-- A mistake at the next token. -/
theorem metAt_diagnose (h : k ≤ ts.length) (f : GrammarFault) : MetAt ts k ((placeAt ts k).diagnose f) := by
  rcases placeAt_cases h with rfl | ⟨t, ht⟩
  · exact .finish
  · unfold Cursor.diagnose
    rw [ahead_placeAt ht]
    exact .token ht

theorem MetAt.le_length {d : Diagnostic} (h : MetAt ts k d) : k ≤ ts.length := by
  cases h with
  | token ht => exact Nat.le_of_lt (lt_length_of_getElem? ht)
  | finish => exact Nat.le_refl _

end Places

/-! ## Readers go on -/

/-- From the place `k` the reader goes on to a place, and a mistake is met at one from `i` up to there. -/
structure Advances {α : Type} (ts : List Token) (i k : Nat) (r : Reader α) : Prop where
  done : ∀ {c : Cursor} {a : α}, i ≤ k → k ≤ ts.length → r (placeAt ts k) = .done a c →
    ∃ k', k ≤ k' ∧ k' ≤ ts.length ∧ c = placeAt ts k'
  failed : ∀ {c : Cursor} {d : Diagnostic}, i ≤ k → k ≤ ts.length → r (placeAt ts k) = .failed d c →
    ∃ k' m, k ≤ k' ∧ k' ≤ ts.length ∧ c = placeAt ts k' ∧ i ≤ m ∧ m ≤ k' ∧ MetAt ts m d

namespace Advances

variable {α β : Type} {ts : List Token} {i k : Nat}

theorem pure {a : α} : Advances ts i k (Pure.pure a : Reader α) where
  done _ hk hr := by
    cases hr
    exact ⟨k, Nat.le_refl k, hk, rfl⟩
  failed _ _ hr := by cases hr

theorem exhausted : Advances ts i k (Reader.exhausted : Reader α) where
  done _ _ hr := by cases hr
  failed _ _ hr := by cases hr

theorem fault {f : GrammarFault} : Advances ts i k (Reader.fault f : Reader α) where
  done _ _ hr := by cases hr
  failed hi hk hr := by
    cases hr
    exact ⟨k, k, Nat.le_refl k, hk, rfl, hi, Nat.le_refl k, metAt_diagnose hk f⟩

/-- A fault at a token that was taken before. -/
theorem faultAt {t : Token} {f : GrammarFault} {m : Nat} (hi : i ≤ m) (hm : m ≤ k) (ht : ts[m]? = some t) :
    Advances ts i k (Reader.faultAt t f : Reader α) where
  done _ _ hr := by cases hr
  failed _ hk hr := by
    cases hr
    exact ⟨k, m, Nat.le_refl k, hk, rfl, hi, hm, .token ht⟩

/-- One reader after the other. -/
theorem bind {r : Reader α} {f : α → Reader β} (hr : Advances ts i k r)
    (hf : ∀ a {k'}, k ≤ k' → Advances ts i k' (f a)) : Advances ts i k (r >>= f) where
  done hi hk hb := by
    obtain ⟨a, c, hra, hb⟩ := Reader.bind_done hb
    obtain ⟨k', hle, hk', rfl⟩ := hr.done hi hk hra
    obtain ⟨k'', hle', hrest⟩ := (hf a hle).done (hi.trans hle) hk' hb
    exact ⟨k'', hle.trans hle', hrest⟩
  failed hi hk hb := by
    rcases Reader.bind_failed hb with hra | ⟨a, c, hra, hb⟩
    · exact hr.failed hi hk hra
    · obtain ⟨k', hle, hk', rfl⟩ := hr.done hi hk hra
      obtain ⟨k'', m, hle', hrest⟩ := (hf a hle).failed (hi.trans hle) hk' hb
      exact ⟨k'', m, hle.trans hle', hrest⟩

theorem map {r : Reader α} {f : α → β} (hr : Advances ts i k r) : Advances ts i k (f <$> r) :=
  bind (f := fun a => Pure.pure (f a)) hr fun _ _ _ => pure

theorem sees_bind {kind : TokenKind} {f : Bool → Reader β} (h : ∀ b, Advances ts i k (f b)) :
    Advances ts i k (Reader.sees kind >>= f) where
  done hi hk hr := (h _).done hi hk hr
  failed hi hk hr := (h _).failed hi hk hr

theorem atEnd_bind {f : Bool → Reader β} (h : ∀ b, Advances ts i k (f b)) :
    Advances ts i k (Reader.atEnd >>= f) where
  done hi hk hr := (h _).done hi hk hr
  failed hi hk hr := (h _).failed hi hk hr

end Advances

/-! ## One token -/

/-- What a reader of at most one token comes to: it leaves the next token where it is, is at a loss for it, or takes it;
`P` is about what it gives and the token that it took. -/
inductive OneToken {α : Type} (ts : List Token) (k : Nat) (P : α → Option Token → Prop) : Reading α → Prop
  | left {a : α} : P a none → OneToken ts k P (.done a (placeAt ts k))
  | lost {f : GrammarFault} : OneToken ts k P (.failed ((placeAt ts k).diagnose f) (placeAt ts k))
  | taken {a : α} {t : Token} {c : Cursor} : ts[k]? = some t → c = placeAt ts (k + 1) → P a (some t) →
      OneToken ts k P (.done a c)

section OneToken

variable {α β : Type} {ts : List Token} {i k : Nat} (hk : k ≤ ts.length)
include hk

theorem oneToken_acceptAs (classify : TokenKind → Option α) :
    OneToken ts k (fun o t? => o.map Prod.snd = t?) (Reader.acceptAs classify (placeAt ts k)) := by
  unfold Reader.acceptAs
  rcases placeAt_cases hk with rfl | ⟨t, ht⟩
  · rw [ahead_length]
    exact .left rfl
  · rw [ahead_placeAt ht]
    cases hc : classify t.kind with
    | none => simp only [hc]; exact .left rfl
    | some a => simp only [hc]; exact .taken ht (placeAt_succ ht).symm rfl

theorem oneToken_accept (kind : TokenKind) :
    OneToken ts k (fun o t? => o = t?) (Reader.accept kind (placeAt ts k)) := by
  unfold Reader.accept
  rcases placeAt_cases hk with rfl | ⟨t, ht⟩
  · rw [ahead_length]
    exact .left rfl
  · rw [ahead_placeAt ht]
    by_cases hc : t.kind = kind
    · simp only [hc, if_true]; exact .taken ht (placeAt_succ ht).symm rfl
    · simp only [hc, if_false]; exact .left rfl

theorem oneToken_expect (kind : TokenKind) (f : GrammarFault) :
    OneToken ts k (fun t t? => t? = some t) (Reader.expect kind f (placeAt ts k)) := by
  unfold Reader.expect
  rcases placeAt_cases hk with rfl | ⟨t, ht⟩
  · rw [ahead_length]
    exact .lost
  · rw [ahead_placeAt ht]
    by_cases hc : t.kind = kind
    · simp only [hc, if_true]; exact .taken ht (placeAt_succ ht).symm rfl
    · simp only [hc, if_false]; exact .lost

theorem oneToken_takeOpening :
    OneToken ts k (fun o t? => t? = some o.2) (Grammar.takeOpening (placeAt ts k)) := by
  unfold Grammar.takeOpening
  rcases placeAt_cases hk with rfl | ⟨t, ht⟩
  · rw [ahead_length]
    exact .lost
  · rw [ahead_placeAt ht]
    dsimp only
    split
    · exact .lost
    · exact .taken ht (placeAt_succ ht).symm rfl

end OneToken

namespace Advances

variable {α β : Type} {ts : List Token} {i k : Nat}

/-- A reader of at most one token, and then another reader. -/
theorem token_bind {P : α → Option Token → Prop} {r : Reader α} {f : α → Reader β}
    (hr : k ≤ ts.length → OneToken ts k P (r (placeAt ts k))) (hn : ∀ a, P a none → Advances ts i k (f a))
    (hs : ∀ a t, ts[k]? = some t → P a (some t) → Advances ts i (k + 1) (f a)) : Advances ts i k (r >>= f) where
  done hi hk hb := by
    obtain ⟨a, c, hra, hb⟩ := Reader.bind_done hb
    have hone := hr hk
    rw [hra] at hone
    cases hone with
    | left ha => exact (hn a ha).done hi hk hb
    | taken ht hc ha =>
      subst hc
      obtain ⟨k', hle, hrest⟩ := (hs a _ ht ha).done (by omega) (lt_length_of_getElem? ht) hb
      exact ⟨k', by omega, hrest⟩
  failed hi hk hb := by
    have hone := hr hk
    rcases Reader.bind_failed hb with hra | ⟨a, c, hra, hb⟩
    · rw [hra] at hone
      cases hone with
      | lost => exact ⟨k, k, Nat.le_refl k, hk, rfl, hi, Nat.le_refl k, metAt_diagnose hk _⟩
    · rw [hra] at hone
      cases hone with
      | left ha => exact (hn a ha).failed hi hk hb
      | taken ht hc ha =>
        subst hc
        obtain ⟨k', m, hle, hrest⟩ := (hs a _ ht ha).failed (by omega) (lt_length_of_getElem? ht) hb
        exact ⟨k', m, by omega, hrest⟩

theorem acceptAs_bind {classify : TokenKind → Option α} {f : Option (α × Token) → Reader β}
    (hn : Advances ts i k (f none)) (hs : ∀ a t, Advances ts i (k + 1) (f (some (a, t)))) :
    Advances ts i k (Reader.acceptAs classify >>= f) := by
  refine token_bind (fun hk => oneToken_acceptAs hk classify) (fun o ho => ?_) fun o t _ ho => ?_
  · rw [Option.map_eq_none_iff.1 ho]
    exact hn
  · obtain ⟨⟨a, u⟩, rfl, -⟩ := Option.map_eq_some_iff.1 ho
    exact hs a u

theorem accept_bind {kind : TokenKind} {f : Option Token → Reader β} (hn : Advances ts i k (f none))
    (hs : ∀ t, ts[k]? = some t → Advances ts i (k + 1) (f (some t))) :
    Advances ts i k (Reader.accept kind >>= f) :=
  token_bind (fun hk => oneToken_accept hk kind) (fun _ ho => ho ▸ hn) fun _ t ht ho => ho ▸ hs t ht

theorem expect_bind {kind : TokenKind} {g : GrammarFault} {f : Token → Reader β}
    (hs : ∀ t, Advances ts i (k + 1) (f t)) : Advances ts i k (Reader.expect kind g >>= f) :=
  token_bind (fun hk => oneToken_expect hk kind g) nofun fun t _ _ _ => hs t

end Advances

/-! ## Each reader -/

namespace Grammar

open Reader

variable {ts : List Token} {i k : Nat}

theorem advances_assignTo {target value : Expr} {equals : Token} {m : Nat} (hi : i ≤ m) (hm : m ≤ k)
    (he : ts[m]? = some equals) : Advances ts i k (assignTo target equals value) := by
  unfold assignTo
  split
  case h_4 => exact .faultAt hi hm he
  all_goals exact .pure

/-- What the readers of expressions do with a bound `n`. -/
structure ExpressionsAdvance (ts : List Token) (i n : Nat) : Prop where
  expression : ∀ {k}, i ≤ k → Advances ts i k (expression n)
  tier : ∀ {k}, i ≤ k → ∀ t, Advances ts i k (tier n t)
  operand : ∀ {k}, i ≤ k → ∀ t, Advances ts i k (operand n t)
  tierRest : ∀ {k}, i ≤ k → ∀ t left, Advances ts i k (tierRest n t left)
  signed : ∀ {k}, i ≤ k → Advances ts i k (signed n)
  suffixes : ∀ {k}, i ≤ k → ∀ e, Advances ts i k (suffixes n e)
  listUntil : ∀ {k}, i ≤ k → ∀ close room, Advances ts i k (listUntil n close room)
  list : ∀ {k}, i ≤ k → ∀ room, Advances ts i k (list n room)
  primary : ∀ {k}, i ≤ k → Advances ts i k (primary n)

section Expressions

variable {n : Nat} (ih : ExpressionsAdvance ts i n) (hi : i ≤ k)
include ih hi

theorem advances_expression : Advances ts i k (expression (n + 1)) := by
  rw [expression]
  refine .bind (ih.tier hi .or) fun target {k₁} h₁ => ?_
  refine .accept_bind .pure fun equals he => ?_
  refine .bind (ih.expression (by omega)) fun value {k₂} h₂ => ?_
  exact advances_assignTo (by omega) (by omega) he

theorem advances_tier (t : Tier) : Advances ts i k (tier (n + 1) t) := by
  rw [tier]
  exact .bind (ih.operand hi t) fun first _ h => ih.tierRest (hi.trans h) t first

theorem advances_operand (t : Tier) : Advances ts i k (operand (n + 1) t) := by
  rw [operand]
  split
  · exact ih.tier hi _
  · exact ih.signed hi

theorem advances_tierRest (t : Tier) (left : Expr) : Advances ts i k (tierRest (n + 1) t left) := by
  rw [tierRest]
  refine .acceptAs_bind .pure fun joint _ => ?_
  exact .bind (ih.operand (by omega) t) fun right _ h => ih.tierRest (by omega) t _

theorem advances_signed : Advances ts i k (signed (n + 1)) := by
  rw [signed]
  refine .acceptAs_bind ?_ fun op t => ?_
  · exact .bind (ih.primary hi) fun first _ h => ih.suffixes (hi.trans h) first
  · exact .bind (ih.signed (by omega)) fun inner _ _ => .pure

theorem advances_suffixes (e : Expr) : Advances ts i k (suffixes (n + 1) e) := by
  rw [suffixes]
  refine .acceptAs_bind .pure fun suffix _ => ?_
  cases suffix with
  | arguments =>
    exact .bind (ih.listUntil (by omega) _ _) fun args _ h => .expect_bind fun close => ih.suffixes (by omega) _
  | index =>
    exact .bind (ih.expression (by omega)) fun index _ h => .expect_bind fun close => ih.suffixes (by omega) _
  | property => exact .expect_bind fun name => ih.suffixes (by omega) _

theorem advances_listUntil (close : TokenKind) (room : Option Nat) : Advances ts i k (listUntil (n + 1) close room) := by
  rw [listUntil]
  refine .sees_bind fun b => ?_
  cases b with
  | true => exact .pure
  | false => exact ih.list hi room

theorem advances_list (room : Option Nat) : Advances ts i k (list (n + 1) room) := by
  by_cases hz : room = some 0
  · rw [hz, list]
    exact .fault
  · rw [list]
    · refine .bind (ih.expression hi) fun e _ h => .accept_bind .pure fun comma _ => ?_
      exact .bind (ih.list (by omega) _) fun es _ _ => .pure
    · exact hz

theorem advances_primary : Advances ts i k (primary (n + 1)) := by
  rw [primary]
  refine .token_bind oneToken_takeOpening (fun o ho => ?_) fun o t ht ho => ?_
  · cases ho
  obtain rfl := Option.some.inj ho
  obtain ⟨o, t⟩ := o
  cases o with
  | whole e => exact .pure
  | group => exact .bind (ih.expression (by omega)) fun inner _ _ => .expect_bind fun close => .pure
  | array => exact .bind (ih.listUntil (by omega) _ _) fun items _ _ => .expect_bind fun close => .pure
  | hollow => exact .faultAt hi (Nat.le_succ k) ht
  | none => exact .faultAt hi (Nat.le_succ k) ht

end Expressions

theorem expressions_advance (ts : List Token) (i : Nat) : ∀ n, ExpressionsAdvance ts i n
  | 0 => by
    constructor <;> intros <;> simp only [expression, tier, operand, tierRest, signed, suffixes, listUntil, list, primary]
    all_goals exact .exhausted
  | n + 1 =>
    have ih := expressions_advance ts i n
    { expression := advances_expression ih
      tier := advances_tier ih
      operand := advances_operand ih
      tierRest := advances_tierRest ih
      signed := advances_signed ih
      suffixes := advances_suffixes ih
      listUntil := advances_listUntil ih
      list := advances_list ih
      primary := advances_primary ih }

section Parts

variable (hi : i ≤ k) (n : Nat)
include hi

theorem advances_optionalUntil (close : TokenKind) : Advances ts i k (optionalUntil n close) := by
  unfold optionalUntil
  refine .sees_bind fun b => ?_
  cases b with
  | true => exact .pure
  | false => exact .map ((expressions_advance ts i n).expression hi)

theorem advances_expressionStatement : Advances ts i k (expressionStatement n) := by
  unfold expressionStatement
  exact .bind ((expressions_advance ts i n).expression hi) fun e _ _ => .expect_bind fun close => .pure

theorem advances_forStart : Advances ts i k (forStart n) := by
  unfold forStart
  exact .accept_bind (.map (advances_expressionStatement hi n)) fun _ _ => .pure

theorem advances_returnStatement (keyword : Token) : Advances ts i k (returnStatement n keyword) := by
  unfold returnStatement
  exact .bind (advances_optionalUntil hi n _) fun value _ _ => .expect_bind fun close => .pure

theorem advances_printStatement (newline : Bool) (keyword : Token) :
    Advances ts i k (printStatement n newline keyword) := by
  unfold printStatement
  refine .expect_bind fun _ => .bind ((expressions_advance ts i n).expression (by omega)) fun e _ _ => ?_
  exact .expect_bind fun _ => .expect_bind fun close => .pure

theorem advances_inputStatement (keyword : Token) : Advances ts i k (inputStatement n keyword) := by
  unfold inputStatement
  refine .expect_bind fun _ => .bind (advances_optionalUntil (by omega) n _) fun e _ _ => ?_
  exact .expect_bind fun _ => .expect_bind fun close => .pure

end Parts

theorem advances_parameters (room : Nat) : Advances ts i k (parameters room) := by
  induction room generalizing k with
  | zero => exact .fault
  | succ room ih =>
    rw [parameters]
    exact .expect_bind fun name => .accept_bind .pure fun comma _ => .bind ih fun names _ _ => .pure

/-- What the readers of statements do with a bound `n`. -/
structure StatementsAdvance (ts : List Token) (i n : Nat) : Prop where
  declaration : ∀ {k}, i ≤ k → Advances ts i k (declaration n)
  functionDeclaration : ∀ {k}, i ≤ k → ∀ keyword, Advances ts i k (functionDeclaration n keyword)
  blockRest : ∀ {k}, i ≤ k → Advances ts i k (blockRest n)
  statement : ∀ {k}, i ≤ k → Advances ts i k (statement n)

section Statements

variable {n : Nat} (ih : StatementsAdvance ts i n) (hi : i ≤ k)
include ih hi

theorem advances_declaration : Advances ts i k (declaration (n + 1)) := by
  rw [declaration]
  exact .accept_bind (ih.statement hi) fun keyword _ => ih.functionDeclaration (by omega) keyword

theorem advances_functionDeclaration (keyword : Token) : Advances ts i k (functionDeclaration (n + 1) keyword) := by
  rw [functionDeclaration]
  refine .expect_bind fun name => .expect_bind fun _ => .sees_bind fun b => ?_
  -- The rest is the same whether there are parameters or not.
  have tail : ∀ (params : List String) {k'}, k + 1 + 1 ≤ k' → Advances ts i k' (do
      let _ ← expect .rightParen .parametersClose
      let _ ← expect .leftBrace .functionBody
      let b ← blockRest n
      pure (Stmt.function name.lexeme params b.1 (keyword.span.through b.2.span))) := fun params {k'} hk =>
    .expect_bind fun _ => .expect_bind fun _ => .bind (ih.blockRest (by omega)) fun b _ _ => .pure
  cases b with
  | true => exact .bind .pure fun params _ h => tail params h
  | false => exact .bind (advances_parameters maxArguments) fun params _ h => tail params h

theorem advances_blockRest : Advances ts i k (blockRest (n + 1)) := by
  rw [blockRest]
  refine .accept_bind (.atEnd_bind fun b => ?_) fun close _ => .pure
  cases b with
  | true => exact .fault
  | false =>
    exact .bind (ih.declaration hi) fun s _ h => .bind (ih.blockRest (by omega)) fun rest _ _ => .pure

theorem advances_statement : Advances ts i k (statement (n + 1)) := by
  rw [statement]
  refine .acceptAs_bind (advances_expressionStatement hi n) fun lead keyword => ?_
  have hexpr : ∀ {k}, i ≤ k → Advances ts i k (expression n) := (expressions_advance ts i n).expression
  cases lead with
  | ifLead =>
    refine .expect_bind fun _ => .bind (hexpr (by omega)) fun condition _ _ => .expect_bind fun _ => ?_
    refine .bind (ih.statement (by omega)) fun yes _ _ => .accept_bind .pure fun _ _ => ?_
    exact .bind (ih.statement (by omega)) fun no _ _ => .pure
  | whileLead =>
    refine .expect_bind fun _ => .bind (hexpr (by omega)) fun condition _ _ => .expect_bind fun _ => ?_
    exact .bind (ih.statement (by omega)) fun body _ _ => .pure
  | forLead =>
    refine .expect_bind fun _ => .bind (advances_forStart (by omega) n) fun start _ _ => ?_
    refine .bind (advances_optionalUntil (by omega) n _) fun condition _ _ => .expect_bind fun _ => ?_
    refine .bind (advances_optionalUntil (by omega) n _) fun step _ _ => .expect_bind fun _ => ?_
    exact .bind (ih.statement (by omega)) fun body _ _ => .pure
  | returnLead => exact advances_returnStatement (by omega) n keyword
  | printLead newline => exact advances_printStatement (by omega) n newline keyword
  | inputLead => exact advances_inputStatement (by omega) n keyword
  | blockLead => exact .bind (ih.blockRest (by omega)) fun b _ _ => .pure

end Statements

theorem statements_advance (ts : List Token) (i : Nat) : ∀ n, StatementsAdvance ts i n
  | 0 => by
    constructor <;> intros <;> simp only [declaration, functionDeclaration, blockRest, statement] <;> exact .exhausted
  | n + 1 =>
    have ih := statements_advance ts i n
    { declaration := advances_declaration ih
      functionDeclaration := advances_functionDeclaration ih
      blockRest := advances_blockRest ih
      statement := advances_statement ih }

/-! ## Turns -/

/-- **Turns of reading past mistakes**, from the place with a number to the end of the tokens. Each of them reads a
declaration, or meets a mistake and skips tokens behind it; either way it ends further on, and not behind the end. -/
inductive Turns (n : Nat) (ts : List Token) : Nat → List (Except Diagnostic Stmt) → Prop
  | finish : Turns n ts ts.length []
  | kept {i j : Nat} {s : Stmt} {outcomes : List (Except Diagnostic Stmt)} :
      declaration n (placeAt ts i) = .done s (placeAt ts j) → i < j → j ≤ ts.length → Turns n ts j outcomes →
      Turns n ts i (.ok s :: outcomes)
  | skipped {i j k : Nat} {d : Diagnostic} {outcomes : List (Except Diagnostic Stmt)} :
      declaration n (placeAt ts i) = .failed d (placeAt ts j) → synchronize (placeAt ts j) = placeAt ts k →
      i ≤ j → i < k → k ≤ ts.length → Turns n ts k outcomes → Turns n ts i (.error d :: outcomes)

theorem skip_placeAt (rest : List Token) : ∀ {k : Nat} {latest : Option Token}, k ≤ ts.length →
    placeAt ts k = ⟨latest, rest⟩ → ∃ k', k ≤ k' ∧ k' ≤ ts.length ∧ skip latest rest = placeAt ts k' := by
  induction rest with
  | nil => exact fun {k latest} hk hp => ⟨k, Nat.le_refl k, hk, hp.symm⟩
  | cons t rest ih =>
    intro k latest hk hp
    rw [skip]
    split
    · exact ⟨k, Nat.le_refl k, hk, hp.symm⟩
    · rcases placeAt_cases hk with rfl | ⟨u, hu⟩
      · have hahead := @ahead_length ts
        rw [hp] at hahead
        cases hahead
      · have hahead := ahead_placeAt hu
        rw [hp] at hahead
        obtain ⟨rfl, hrest⟩ := List.cons.inj hahead
        have hnext := placeAt_succ hu
        rw [← hrest] at hnext
        obtain ⟨k', hle, hk', hskip⟩ := ih (lt_length_of_getElem? hu) hnext
        exact ⟨k', by omega, hk', hskip⟩

/-- At least one token is skipped, unless none is left. -/
theorem synchronize_placeAt {j : Nat} (hj : j ≤ ts.length) : ∃ k, k ≤ ts.length ∧
    synchronize (placeAt ts j) = placeAt ts k ∧ (j < k ∨ j = ts.length ∧ k = ts.length) := by
  unfold synchronize Cursor.advance
  rcases placeAt_cases hj with rfl | ⟨t, ht⟩
  · rw [ahead_length]
    obtain ⟨k, hle, hk, hskip⟩ := skip_placeAt (placeAt ts ts.length).ahead (Nat.le_refl ts.length) rfl
    exact ⟨k, hk, hskip, .inr ⟨rfl, Nat.le_antisymm hk hle⟩⟩
  · rw [ahead_placeAt ht]
    obtain ⟨k, hle, hk, hskip⟩ := skip_placeAt (placeAt ts (j + 1)).ahead (lt_length_of_getElem? ht) (placeAt_succ ht)
    exact ⟨k, hk, hskip, .inl hle⟩

/-- **A turn goes on**, and if it meets a mistake, then before the place where the next turn starts, or at the end. -/
theorem turn_advances {n : Nat} {c : Cursor} {d : Diagnostic} (hi : i ≤ ts.length)
    (h : declaration n (placeAt ts i) = .failed d c) : ∃ j k m, c = placeAt ts j ∧ i ≤ j ∧
      synchronize c = placeAt ts k ∧ k ≤ ts.length ∧ MetAt ts m d ∧ i ≤ m ∧ (m < k ∨ m ≤ k ∧ k = ts.length) := by
  obtain ⟨j, m, hij, hj, rfl, him, hmj, hmet⟩ :=
    ((statements_advance ts i n).declaration (Nat.le_refl i)).failed (Nat.le_refl i) hi h
  obtain ⟨k, hk, hsync, hjk⟩ := synchronize_placeAt hj
  exact ⟨j, k, m, rfl, hij, hsync, hk, hmet, him, by omega⟩

theorem length_ahead_placeAt : (placeAt ts k).ahead.length = ts.length - k := List.length_drop

theorem atEnd_placeAt (h : k ≤ ts.length) : (placeAt ts k).atEnd = true ↔ k = ts.length := by
  rw [Cursor.atEnd, List.isEmpty_iff_length_eq_zero, length_ahead_placeAt]
  omega

/-- **The turns come to the end of the tokens**, and are all that reading past mistakes does. -/
theorem turns_of_recovering {n : Nat} (hn : bound ts.length ≤ n) : ∀ {turns i : Nat} (done : List Stmt)
    (problems : List Diagnostic), i ≤ ts.length → ts.length - i < turns → ∃ outcomes, Turns n ts i outcomes ∧
      declarationsRecovering n done problems turns (placeAt ts i) =
        (done.reverse ++ outcomes.filterMap (·.toOption), problems.reverse ++ outcomes.filterMap problem?)
  | 0, _, _, _, _, hturns => absurd hturns (Nat.not_lt_zero _)
  | turns + 1, i, done, problems, hi, hturns => by
    rw [declarationsRecovering]
    by_cases hend : i = ts.length
    · rw [if_pos ((atEnd_placeAt hi).2 hend)]
      exact ⟨[], hend ▸ .finish, by simp⟩
    · rw [if_neg fun h => hend ((atEnd_placeAt hi).1 h)]
      have hbound : bound (placeAt ts i).ahead.length ≤ n := by
        rw [length_ahead_placeAt]
        unfold bound at hn ⊢
        omega
      cases hd : declaration n (placeAt ts i) with
      | exhausted => exact absurd hd (declaration_returns hbound)
      | done s c =>
        rw [nextDeclaration_ok_iff.2 hd]
        obtain ⟨j, hij, hj, rfl⟩ := ((statements_advance ts i n).declaration (Nat.le_refl i)).done (Nat.le_refl i) hi hd
        obtain ⟨-, -, -, hlength⟩ := nextDeclaration_ok (nextDeclaration_ok_iff.2 hd)
        rw [length_ahead_placeAt, length_ahead_placeAt] at hlength
        obtain ⟨outcomes, hrest, hresult⟩ := turns_of_recovering hn (s :: done) problems hj
          (show ts.length - j < turns by omega)
        refine ⟨_, .kept hd (by omega) hj hrest, ?_⟩
        simp only [hresult, List.reverse_cons, List.append_assoc]
        rfl
      | failed d c =>
        rw [(nextDeclaration_error_iff hbound).2 hd]
        obtain ⟨j, k, m, rfl, hij, hsync, hk, -, him, hmk⟩ := turn_advances hi hd
        dsimp only
        rw [hsync]
        obtain ⟨outcomes, hrest, hresult⟩ := turns_of_recovering hn done (d :: problems) hk
          (show ts.length - k < turns by omega)
        refine ⟨_, .skipped hd hsync hij (by omega) hk hrest, ?_⟩
        simp only [hresult, List.reverse_cons, List.append_assoc]
        rfl

namespace Turns

variable {n : Nat} {outcomes : List (Except Diagnostic Stmt)}

/-- Each turn takes a token. -/
theorem length_le (h : Turns n ts i outcomes) : outcomes.length ≤ ts.length - i := by
  induction h with
  | finish => exact Nat.zero_le _
  | kept _ hij hj _ ih => simp only [List.length_cons]; omega
  | skipped _ _ _ hik hk _ ih => simp only [List.length_cons]; omega

/-- **The mistakes are met further and further on.** -/
theorem marks (h : Turns n ts i outcomes) : ∃ marks, List.Forall₂ (MetAt ts) marks (outcomes.filterMap problem?) ∧
    marks.Pairwise (· < ·) ∧ ∀ m ∈ marks, i ≤ m := by
  induction h with
  | finish => exact ⟨[], .nil, .nil, List.forall_mem_nil _⟩
  | kept _ hij _ _ ih =>
    obtain ⟨marks, hmet, hsorted, hlow⟩ := ih
    exact ⟨marks, hmet, hsorted, fun m hm => (Nat.le_of_lt hij).trans (hlow m hm)⟩
  | @skipped i j k d outcomes hd hsync hij hik hk hrest ih =>
    obtain ⟨marks, hmet, hsorted, hlow⟩ := ih
    obtain ⟨j', k', m, hj', -, hsync', hk', hmet', him, hmk⟩ := turn_advances (by omega) hd
    have hkk : k = k' := by
      have hlength := congrArg (·.ahead.length) (hsync.symm.trans hsync')
      simp only [length_ahead_placeAt] at hlength
      omega
    subst hkk
    refine ⟨m :: marks, .cons hmet' hmet, List.pairwise_cons.2 ⟨fun m' hm' => ?_, hsorted⟩,
      List.forall_mem_cons.2 ⟨him, fun m' hm' => (Nat.le_of_lt hik).trans (hlow m' hm')⟩⟩
    rcases hmk with hmk | ⟨-, rfl⟩
    · exact Nat.lt_of_lt_of_le hmk (hlow m' hm')
    · -- At the end there are no more turns, and so no more mistakes.
      have hnone := List.length_eq_zero_iff.1 (Nat.le_zero.1 (Nat.sub_self _ ▸ hrest.length_le))
      subst hnone
      cases hmet
      cases hm'

end Turns

theorem length_outcomes (outcomes : List (Except Diagnostic Stmt)) :
    (outcomes.filterMap (·.toOption)).length + (outcomes.filterMap problem?).length = outcomes.length := by
  induction outcomes with
  | nil => rfl
  | cons outcome outcomes ih =>
    cases outcome with
    | ok s =>
      change (outcomes.filterMap (·.toOption)).length + 1 + (outcomes.filterMap problem?).length = outcomes.length + 1
      omega
    | error d =>
      change (outcomes.filterMap (·.toOption)).length + ((outcomes.filterMap problem?).length + 1) = outcomes.length + 1
      omega

end Grammar

/-! ## Mistakes in a text -/

/-- One mistake stands before another in the text, and not at its end. -/
structure Diagnostic.Precedes (d e : Diagnostic) : Prop where
  spans : ∃ s t, d.span = some s ∧ e.span = some t ∧ s.start < t.start ∧ s.line ≤ t.line
  inside : d.near ≠ some .finish

/-- A mistake at the end is just behind the last token. -/
theorem span_finish {ts : List Token} {t : Token} (h : ts.getLast? = some t) (he : t.isEof = false)
    (f : GrammarFault) :
    (placeAt ts ts.length).diagnose f = .grammar (.single t.span.stop t.span.line) .finish f := by
  rw [placeAt, List.take_length, List.drop_length, h]
  simp only [Cursor.diagnose, he, Bool.false_eq_true, if_false]

theorem exists_mark {ts : List Token} {marks : List Nat} {ds : List Diagnostic}
    (h : List.Forall₂ (MetAt ts) marks ds) : ∀ d ∈ ds, ∃ m ∈ marks, MetAt ts m d := by
  induction h with
  | nil => exact List.forall_mem_nil _
  | cons hd _ ih =>
    refine List.forall_mem_cons.2 ⟨⟨_, List.mem_cons_self, hd⟩, fun d hmem => ?_⟩
    obtain ⟨m, hm, hmet⟩ := ih d hmem
    exact ⟨m, List.mem_cons_of_mem _ hm, hmet⟩

/-- The tokens of a text stand one after the other. -/
theorem ordered_ahead {source : String} {tokens : List Token} (h : scan source = .ok tokens) :
    (tokens.takeWhile fun t => !t.isEof).Pairwise fun a b => a.span.stop ≤ b.span.start :=
  (laid_of_scan h).ordered.sublist (List.takeWhile_sublist _)

section Text

variable {source : String} {ts : List Token} (hpoints : ∀ t ∈ ts, t.span.PointsInto source)
include hpoints

/-- A token further on is on no earlier line. -/
theorem line_le_of_start_le {t u : Token} (ht : t ∈ ts) (hu : u ∈ ts) (hle : t.span.start ≤ u.span.start) :
    t.span.line ≤ u.span.line := by
  rw [(hpoints t ht).line, (hpoints u hu).line]
  exact Nat.add_le_add_left ((List.take_prefix_take_left hle).sublist.count_le '\n') 1

theorem start_le_of_metAt (hinner : ∀ t ∈ ts, t.isEof = false) {m : Nat} {d : Diagnostic} (h : MetAt ts m d) :
    ∃ s, d.span = some s ∧ s.start ≤ source.toList.length := by
  cases h with
  | @token _ t f ht =>
    have hspan := hpoints t (List.mem_of_getElem? ht)
    exact ⟨_, rfl, (Nat.le_of_lt hspan.nonempty).trans hspan.within⟩
  | @finish f =>
    cases hlast : ts.getLast? with
    | none =>
      rw [List.getLast?_eq_none_iff.1 hlast]
      exact ⟨_, rfl, Nat.zero_le _⟩
    | some t =>
      rw [span_finish hlast (hinner t (List.mem_of_getLast? hlast))]
      exact ⟨_, rfl, (hpoints t (List.mem_of_getLast? hlast)).within⟩

/-- **Mistakes that are met further on stand further on in the text.** -/
theorem precedes_of_metAt (hinner : ∀ t ∈ ts, t.isEof = false)
    (hord : ts.Pairwise fun a b => a.span.stop ≤ b.span.start) {m m' : Nat} {d d' : Diagnostic}
    (h : MetAt ts m d) (h' : MetAt ts m' d') (hlt : m < m') : d.Precedes d' := by
  cases h with
  | finish => exact absurd h'.le_length (by omega)
  | @token _ t f ht =>
    have htm := List.mem_of_getElem? ht
    have hne := (hpoints t htm).nonempty
    refine ⟨?_, nofun⟩
    have hbefore : ∀ {k u}, m < k → ts[k]? = some u → t.span.stop ≤ u.span.start := by
      intro k u hk hu
      obtain ⟨hml, rfl⟩ := List.getElem?_eq_some_iff.1 ht
      obtain ⟨hkl, rfl⟩ := List.getElem?_eq_some_iff.1 hu
      exact List.pairwise_iff_getElem.1 hord m k hml hkl hk
    cases h' with
    | @token _ u f' hu =>
      have hstart := hbefore hlt hu
      exact ⟨_, _, rfl, rfl, by omega, line_le_of_start_le hpoints htm (List.mem_of_getElem? hu) (by omega)⟩
    | @finish f' =>
      have hlast : ts.getLast? = some (ts.getLast (List.ne_nil_of_mem htm)) := List.getLast?_eq_some_getLast _
      generalize ts.getLast (List.ne_nil_of_mem htm) = last at hlast
      rw [span_finish hlast (hinner last (List.mem_of_getLast? hlast))]
      -- The token is the last one, or before it.
      have hstop : t.span.stop ≤ last.span.stop ∧ t.span.start ≤ last.span.start := by
        have hlast' := hlast
        rw [List.getLast?_eq_getElem?] at hlast'
        rcases Nat.lt_or_ge m (ts.length - 1) with hm | hm
        · have hstart := hbefore hm hlast'
          have hlastne := (hpoints last (List.mem_of_getLast? hlast)).nonempty
          omega
        · rw [show ts.length - 1 = m by omega, ht] at hlast'
          cases hlast'
          exact ⟨Nat.le_refl _, Nat.le_refl _⟩
      refine ⟨_, _, rfl, rfl, ?_, line_le_of_start_le hpoints htm (List.mem_of_getLast? hlast) hstop.2⟩
      show t.span.start < last.span.stop
      omega

end Text

/-- What holds of one mark before another holds of what is met at them. -/
theorem pairwise_of_marks {ts : List Token} {marks : List Nat} {ds : List Diagnostic}
    {R : Diagnostic → Diagnostic → Prop} (hm : List.Forall₂ (MetAt ts) marks ds) (hs : marks.Pairwise (· < ·))
    (hR : ∀ {m m' d d'}, MetAt ts m d → MetAt ts m' d' → m < m' → R d d') : ds.Pairwise R := by
  induction hm with
  | nil => exact .nil
  | @cons m d marks ds hd hrest ih =>
    obtain ⟨hlt, hs⟩ := List.pairwise_cons.1 hs
    refine List.pairwise_cons.2 ⟨fun d' hd' => ?_, ih hs⟩
    obtain ⟨m', hm', hmet⟩ := exists_mark hrest d' hd'
    exact hR hd hmet (hlt m' hm')

/-- The tokens before the first one that ends the text. -/
def beforeEnd (tokens : List Token) : List Token := tokens.takeWhile fun t => !t.isEof

open Grammar in
/-- **Reading past mistakes makes progress and reports them in order.** On any list of tokens it goes in turns, each of
which starts further on than the one before, up to the first token that ends the text and no further; every turn gives a
declaration or a mistake, so that there are at most as many of both as there are tokens. The mistakes in a text that is
scanned stand in it one behind the other, on lines that do not decrease, and none but the last is at the end. -/
theorem recovery_in_order (tokens : List Token) :
    (∃ outcomes, Turns (bound (beforeEnd tokens).length) (beforeEnd tokens) 0 outcomes ∧
      parseRecovering tokens = (outcomes.filterMap (·.toOption), outcomes.filterMap problem?)) ∧
    (parseRecovering tokens).1.length + (parseRecovering tokens).2.length ≤ (beforeEnd tokens).length ∧
    ∀ source, scan source = .ok tokens → (parseRecovering tokens).2.Pairwise Diagnostic.Precedes ∧
      ∀ d ∈ (parseRecovering tokens).2, ∃ s, d.span = some s ∧ s.start ≤ source.toList.length := by
  obtain ⟨outcomes, hturns, hresult⟩ := turns_of_recovering (Nat.le_refl _) [] [] (Nat.zero_le _)
    (Nat.lt_succ_self (beforeEnd tokens).length)
  have hparse : parseRecovering tokens = (outcomes.filterMap (·.toOption), outcomes.filterMap problem?) :=
    (declarationsRecovering_start _ _ _ _ _ _ _).trans hresult
  rw [hparse]
  refine ⟨⟨outcomes, hturns, rfl⟩, ?_, fun source hscan => ?_⟩
  · rw [length_outcomes]
    exact hturns.length_le
  · have hinner : ∀ t ∈ beforeEnd tokens, t.isEof = false := fun t ht => by simpa using List.mem_takeWhile_imp ht
    have hpoints : ∀ t ∈ beforeEnd tokens, t.span.PointsInto source := fun t ht =>
      pointsInto_of_token hscan ((List.takeWhile_sublist _).subset ht) (hinner t ht)
    obtain ⟨marks, hmet, hsorted, -⟩ := hturns.marks
    refine ⟨pairwise_of_marks hmet hsorted (precedes_of_metAt hpoints hinner (ordered_ahead hscan)), fun d hd => ?_⟩
    obtain ⟨m, -, hmet⟩ := exists_mark hmet d hd
    exact start_le_of_metAt hpoints hinner hmet

/-- A target that cannot be assigned, a parenthesis that is not open, and one that is not closed. -/
def threeMistakes : String := "a + b = c;\n) ;\nprint("

/-- The first mistake is met before the token that reading had come to, and the last one is at the end. -/
theorem recovery_in_order_threeMistakes : ∃ tokens, scan threeMistakes = .ok tokens ∧
    (Grammar.parseRecovering tokens).2.map (·.span) = [some ⟨6, 7, 1⟩, some ⟨11, 12, 2⟩, some ⟨21, 22, 3⟩] ∧
    (Grammar.parseRecovering tokens).2.Pairwise Diagnostic.Precedes := by
  have hscan : scan threeMistakes = .ok
      [⟨.identifier, "a", none, ⟨0, 1, 1⟩⟩, ⟨.plus, "+", none, ⟨2, 3, 1⟩⟩, ⟨.identifier, "b", none, ⟨4, 5, 1⟩⟩,
        ⟨.equal, "=", none, ⟨6, 7, 1⟩⟩, ⟨.identifier, "c", none, ⟨8, 9, 1⟩⟩, ⟨.semicolon, ";", none, ⟨9, 10, 1⟩⟩,
        ⟨.rightParen, ")", none, ⟨11, 12, 2⟩⟩, ⟨.semicolon, ";", none, ⟨13, 14, 2⟩⟩,
        ⟨.print, "print", none, ⟨15, 20, 3⟩⟩, ⟨.leftParen, "(", none, ⟨20, 21, 3⟩⟩, .eof ⟨21, 21, 3⟩] :=
    (scan_eq_scanWithin _).trans rfl
  exact ⟨_, hscan, rfl, ((recovery_in_order _).2.2 _ hscan).1⟩

end StepScript
