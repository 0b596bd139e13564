import StepScript.Grammar.Program
import StepScript.Proofs.Grammar.Derivation
import StepScript.Proofs.Grammar.Reading

/-!
# What is read is in the grammar

Whatever bound a reader is given, the tokens that it takes spell the tree that it comes back with, at the rank or in
the form that it reads (`expressions_sound`, `statements_sound`). The proofs are by induction on the bound, with one
case for each reader.

A program that is read from a list of tokens is spelled by all of them, up to the token that ends the text
(`parse_in_grammar`).
-/

namespace StepScript.Grammar

open Reader

/-! ## Tiers and ranks -/

/-- The rank of a tier. -/
def Tier.rank : Tier → Rank
  | or => .or
  | and => .and
  | equality => .equality
  | comparison => .comparison
  | term => .term
  | factor => .factor

theorem Joint.join_eq (j : Joint) (left right : Expr) :
    j.join left right = j.node left right (left.span.through right.span) := by
  cases j <;> rfl

theorem joins_of_joint {t : Tier} {k : TokenKind} {j : Joint} (h : t.joint? k = some j) : Joins t.rank k j := by
  unfold Tier.joint? at h
  split at h <;> cases h <;> constructor

theorem next_of_tier {t q : Tier} (h : t.next? = some q) : t.rank.Next q.rank := by
  cases t <;> cases h <;> constructor

theorem next_of_last {t : Tier} (h : t.next? = none) : t.rank.Next .sign := by
  cases t <;> cases h
  constructor

theorem suffix_arguments {k : TokenKind} (h : suffix? k = some .arguments) : k = .leftParen := by
  unfold suffix? at h
  split at h <;> cases h
  rfl

theorem suffix_index {k : TokenKind} (h : suffix? k = some .index) : k = .leftBracket := by
  unfold suffix? at h
  split at h <;> cases h
  rfl

theorem suffix_property {k : TokenKind} (h : suffix? k = some .property) : k = .dot := by
  unfold suffix? at h
  split at h <;> cases h
  rfl

theorem signs_of_sign {k : TokenKind} {op : UnaryOp} (h : sign? k = some op) : Signs k op := by
  unfold sign? at h
  split at h <;> cases h <;> constructor

/-! ## Targets of assignments -/

/-- The expressions that can be assigned to. -/
inductive IsTarget : Expr → Prop
  | name (x : String) (span : Span) : IsTarget (.name x span)
  | property (object : Expr) (x : String) (span : Span) : IsTarget (.property object x span)
  | element (object index : Expr) (span : Span) : IsTarget (.element object index span)

theorem Joint.not_target (j : Joint) (left right : Expr) (span : Span) : ¬IsTarget (j.node left right span) := by
  cases j <;> intro ht <;> cases ht

/-- Whatever can be assigned to is spelled without operators, however loose the rank it was read at. -/
theorem Spells.access_of_target : ∀ {r : Rank} {ts : List Token} {e : Expr}, Spells r ts e → IsTarget e →
    Spells .access ts e
  | _, _, _, .next _ h => h.access_of_target
  | _, _, _, .element span ho hk hi hc => fun _ => .element span ho hk hi hc
  | _, _, _, .property span ho hd hn => fun _ => .property span ho hd hn
  | _, _, _, .name span hk => fun _ => .next .access (.name span hk)
  | _, _, _, .join span _ _ _ _ => fun ht => absurd ht (Joint.not_target _ _ _ span)
  | _, _, _, .assign _ _ _ _ | _, _, _, .setProperty _ _ _ _ | _, _, _, .setElement _ _ _ _ => nofun
  | _, _, _, .sign _ _ _ | _, _, _, .call _ _ _ _ _ _ | _, _, _, .literal _ _ => nofun
  | _, _, _, .group _ _ _ _ | _, _, _, .array _ _ _ _ => nofun

/-- An assignment is spelled by its target, an equals sign and its value. -/
theorem reads_assignTo {ts us vs : List Token} {target value : Expr} {equals : Token} (ht : Spells .or us target)
    (he : equals.kind = .equal) (hv : Spells .assignment vs value) :
    Reads ts (assignTo target equals value) fun used e _ => used = [] ∧ Spells .assignment (us ++ equals :: vs) e := by
  unfold assignTo
  split
  · exact .pure ⟨rfl, .assign _ (ht.access_of_target (.name _ _)) he hv⟩
  · exact .pure ⟨rfl, .setProperty _ (ht.access_of_target (.property _ _ _)) he hv⟩
  · exact .pure ⟨rfl, .setElement _ (ht.access_of_target (.element _ _ _)) he hv⟩
  · exact .faultAt

/-! ## Operands -/

/-- What a token that opens an operand is. -/
inductive Opens (t : Token) : Opening → Prop
  | whole {e : Expr} : Spells .operand [t] e → Opens t (.whole e)
  | group : t.kind = .leftParen → Opens t .group
  | array : t.kind = .leftBracket → Opens t .array
  | hollow : Opens t .hollow

theorem opens_opening (t : Token) (h : opening t ≠ .none) : Opens t (opening t) := by
  unfold opening at h ⊢
  split
  · exact .whole (.literal _ (.false ‹_›))
  · exact .whole (.literal _ (.true ‹_›))
  · exact .whole (.literal _ (.null ‹_›))
  · split
    · exact .whole (.literal _ (.number (Or.inl ‹_›) ‹_›))
    · exact .whole (.literal _ (.text (Or.inl ‹_›) ‹_›))
    · exact .hollow
  · split
    · exact .whole (.literal _ (.number (Or.inr ‹_›) ‹_›))
    · exact .whole (.literal _ (.text (Or.inr ‹_›) ‹_›))
    · exact .hollow
  · rename_i hk; exact .whole (.name _ (hk ▸ .identifier))
  · rename_i hk; exact .whole (.name _ (hk ▸ .print))
  · rename_i hk; exact .whole (.name _ (hk ▸ .printLine))
  · rename_i hk; exact .whole (.name _ (hk ▸ .input))
  · exact .group ‹_›
  · exact .array ‹_›
  · simp_all

theorem reads_takeOpening {ts : List Token} :
    Reads ts takeOpening fun used o _ => used = [o.2] ∧ Opens o.2 o.1 where
  done {c c' o} hc hr := by
    unfold takeOpening at hr
    split at hr
    · cases hr
    · rename_i t us ha
      split at hr
      · cases hr
      · rename_i hn
        cases hr
        exact ⟨[t], hc ▸ ha, rfl, opens_opening t hn⟩
  failed {c c' d} hc hr := by
    have hd : (∃ f, d = c.diagnose f) ∧ c' = c := by
      unfold takeOpening at hr
      split at hr
      · cases hr; exact ⟨⟨_, rfl⟩, rfl⟩
      · split at hr
        · cases hr; exact ⟨⟨_, rfl⟩, rfl⟩
        · cases hr
    obtain ⟨⟨f, rfl⟩, rfl⟩ := hd
    exact ⟨⟨f, diagnose_grammar _ f⟩, [], hc.symm⟩

/-! ## Expressions -/

/-- What the readers of expressions do with a bound `n`. -/
structure ExpressionsSound (n : Nat) : Prop where
  expression : ∀ ts, Reads ts (expression n) fun used e _ => Spells .assignment used e
  tier : ∀ ts t, Reads ts (tier n t) fun used e _ => Spells t.rank used e
  operand : ∀ ts t, Reads ts (operand n t) fun used e _ => ∃ q, t.rank.Next q ∧ Spells q used e
  tierRest : ∀ ts t {ls left}, Spells t.rank ls left →
    Reads ts (tierRest n t left) fun used e _ => Spells t.rank (ls ++ used) e
  signed : ∀ ts, Reads ts (signed n) fun used e _ => Spells .sign used e
  suffixes : ∀ ts {ls e}, Spells .access ls e →
    Reads ts (suffixes n e) fun used e' _ => Spells .access (ls ++ used) e'
  listUntil : ∀ ts close room, Reads ts (listUntil n close room) fun used es _ =>
    SpellsList used es ∧ ∀ k, room = some k → es.length ≤ k
  list : ∀ ts room, Reads ts (list n room) fun used es _ => SpellsSome used es ∧ ∀ k, room = some k → es.length ≤ k
  primary : ∀ ts, Reads ts (primary n) fun used e _ => Spells .operand used e

section Step

variable {n : Nat} (ih : ExpressionsSound n) (ts : List Token)
include ih

theorem reads_expression : Reads ts (expression (n + 1)) fun used e _ => Spells .assignment used e := by
  rw [expression]
  refine .bind (ih.tier ts .or) fun us target rest _ ht => ?_
  refine .accept_bind (fun _ => ?_) fun equals rest' _ he => ?_
  · exact .pure (by rw [List.append_nil]; exact .next .assignment ht)
  · refine .bind (ih.expression rest') fun vs value rest'' _ hv => ?_
    refine (reads_assignTo ht he hv).mono fun used e _ _ hg => ?_
    obtain ⟨rfl, hs⟩ := hg
    simpa using hs

theorem reads_tier (t : Tier) : Reads ts (tier (n + 1) t) fun used e _ => Spells t.rank used e := by
  rw [tier]
  refine .bind (ih.operand ts t) fun us first rest _ hf => ?_
  obtain ⟨q, hq, hs⟩ := hf
  exact ih.tierRest rest t (.next hq hs)

theorem reads_operand (t : Tier) :
    Reads ts (operand (n + 1) t) fun used e _ => ∃ q, t.rank.Next q ∧ Spells q used e := by
  rw [operand]
  split
  · rename_i tighter ht
    exact (ih.tier ts tighter).mono fun _ _ _ _ hs => ⟨_, next_of_tier ht, hs⟩
  · rename_i ht
    exact (ih.signed ts).mono fun _ _ _ _ hs => ⟨_, next_of_last ht, hs⟩

theorem reads_tierRest (t : Tier) {ls : List Token} {left : Expr} (hl : Spells t.rank ls left) :
    Reads ts (tierRest (n + 1) t left) fun used e _ => Spells t.rank (ls ++ used) e := by
  rw [tierRest]
  refine .acceptAs_bind (fun _ => ?_) fun joint op rest _ hj => ?_
  · exact .pure (by rwa [List.append_nil])
  · refine .bind (ih.operand rest t) fun rs right rest' _ hr => ?_
    obtain ⟨q, hq, hs⟩ := hr
    have hn : Spells t.rank (ls ++ op :: rs) (joint.join left right) := by
      rw [Joint.join_eq]
      exact .join _ (joins_of_joint hj) hq hl hs
    refine (ih.tierRest rest' t hn).mono fun used e _ _ he => ?_
    simpa using he

theorem reads_signed : Reads ts (signed (n + 1)) fun used e _ => Spells .sign used e := by
  rw [signed]
  refine .acceptAs_bind (fun _ => ?_) fun op t rest _ ho => ?_
  · refine .bind (ih.primary ts) fun us first rest _ hf => ?_
    exact (ih.suffixes rest (.next .access hf)).mono fun used e _ _ he => .next .sign he
  · refine .bind (ih.signed rest) fun us inner rest' _ hi => ?_
    exact .pure (by rw [List.append_nil]; exact .sign _ (signs_of_sign ho) hi)

theorem reads_suffixes {ls : List Token} {e : Expr} (he : Spells .access ls e) :
    Reads ts (suffixes (n + 1) e) fun used e' _ => Spells .access (ls ++ used) e' := by
  rw [suffixes]
  refine .acceptAs_bind (fun _ => ?_) fun suffix opened rest _ hs => ?_
  · exact .pure (by rwa [List.append_nil])
  · cases suffix with
    | arguments =>
      refine .bind (ih.listUntil rest .rightParen (some maxArguments)) fun us args rest' _ ha => ?_
      refine .expect_bind fun close rest'' _ hc => ?_
      have hn := Spells.call (e.span.through close.span) he (suffix_arguments hs) ha.1 (ha.2 _ rfl) hc
      refine (ih.suffixes rest'' hn).mono fun used e' _ _ h => ?_
      simpa using h
    | index =>
      refine .bind (ih.expression rest) fun us index rest' _ hi => ?_
      refine .expect_bind fun close rest'' _ hc => ?_
      have hn := Spells.element (e.span.through close.span) he (suffix_index hs) hi hc
      refine (ih.suffixes rest'' hn).mono fun used e' _ _ h => ?_
      simpa using h
    | property =>
      refine .expect_bind fun name rest' _ hk => ?_
      have hn := Spells.property (e.span.through name.span) he (suffix_property hs) hk
      refine (ih.suffixes rest' hn).mono fun used e' _ _ h => ?_
      simpa using h

theorem reads_listUntil (close : TokenKind) (room : Option Nat) : Reads ts (listUntil (n + 1) close room)
    fun used es _ => SpellsList used es ∧ ∀ k, room = some k → es.length ≤ k := by
  rw [listUntil]
  refine .sees_bind fun b _ => ?_
  cases b with
  | true => exact .pure ⟨.none, fun k _ => Nat.zero_le k⟩
  | false => exact (ih.list ts room).mono fun _ _ _ _ h => ⟨.some h.1, h.2⟩

theorem reads_list (room : Option Nat) : Reads ts (list (n + 1) room)
    fun used es _ => SpellsSome used es ∧ ∀ k, room = some k → es.length ≤ k := by
  by_cases hz : room = some 0
  · rw [hz, list]
    exact .fault
  · rw [list]
    · refine .bind (ih.expression ts) fun us e rest _ he => ?_
      refine .accept_bind (fun _ => ?_) fun comma rest' _ hc => ?_
      · refine .pure ⟨by rw [List.append_nil]; exact .one he, fun k hk => ?_⟩
        subst hk
        exact Nat.pos_of_ne_zero fun h0 => hz (by rw [h0])
      · refine .bind (ih.list rest' _) fun vs es rest'' _ hes => ?_
        refine .pure ⟨by rw [List.append_nil]; exact .more he hc hes.1, fun k hk => ?_⟩
        subst hk
        have := hes.2 (k - 1) rfl
        have : k ≠ 0 := fun h0 => hz (by rw [h0])
        simp only [List.length_cons]
        omega
    · exact hz

theorem reads_primary : Reads ts (primary (n + 1)) fun used e _ => Spells .operand used e := by
  rw [primary]
  refine .bind reads_takeOpening fun us o rest _ ho => ?_
  obtain ⟨o, t⟩ := o
  obtain ⟨rfl, ho⟩ := ho
  cases ho with
  | whole he => exact .pure he
  | group hk =>
    refine .bind (ih.expression rest) fun us inner rest' _ hi => ?_
    refine .expect_bind fun close rest'' _ hc => ?_
    exact .pure (by simpa using Spells.group (t.span.through close.span) hk hi hc)
  | array hk =>
    refine .bind (ih.listUntil rest .rightBracket none) fun us items rest' _ hi => ?_
    refine .expect_bind fun close rest'' _ hc => ?_
    exact .pure (by simpa using Spells.array (t.span.through close.span) hk hi.1 hc)
  | hollow => exact .faultAt

end Step

/-- **The readers of expressions take what the grammar says**, whatever their bound. -/
theorem expressions_sound : ∀ n, ExpressionsSound n
  | 0 => by
    constructor <;> intros <;> simp only [expression, tier, operand, tierRest, signed, suffixes, listUntil, list, primary]
    all_goals exact .exhausted
  | n + 1 =>
    have ih := expressions_sound n
    { expression := reads_expression ih
      tier := reads_tier ih
      operand := reads_operand ih
      tierRest := fun ts t _ _ => reads_tierRest ih ts t
      signed := reads_signed ih
      suffixes := fun ts _ _ => reads_suffixes ih ts
      listUntil := reads_listUntil ih
      list := reads_list ih
      primary := reads_primary ih }

/-! ## Parts of statements -/

section Parts

variable (n : Nat) (ts : List Token)

theorem effect_statementOf (e : Expr) (span : Span) : Effect e (statementOf e span) := by
  unfold statementOf
  split
  · exact .assign _ _ _ span
  · rename_i hn
    exact .expr span fun x value s he => hn x value s he

theorem reads_optionalUntil (close : TokenKind) :
    Reads ts (optionalUntil n close) fun used e _ => SpellsOption used e := by
  unfold optionalUntil
  refine .sees_bind fun b _ => ?_
  cases b with
  | true => exact .pure .none
  | false => exact .map (((expressions_sound n).expression ts).mono fun _ _ _ _ h => .some h)

theorem reads_expressionStatement : Reads ts (expressionStatement n) fun used s _ =>
    ∃ us close e, used = us ++ [close] ∧ Spells .assignment us e ∧ Effect e s ∧ close.kind = .semicolon := by
  unfold expressionStatement
  refine .bind ((expressions_sound n).expression ts) fun us e rest _ he => ?_
  refine .expect_bind fun close rest' _ hc => ?_
  exact .pure ⟨us, close, e, rfl, he, effect_statementOf e _, hc⟩

theorem reads_parameters (ts : List Token) : ∀ room,
    Reads ts (parameters room) fun used xs _ => Names used xs ∧ xs.length ≤ room
  | 0 => by
    rw [parameters]
    exact .fault
  | room + 1 => by
    rw [parameters]
    refine .expect_bind fun name rest _ hn => ?_
    refine .accept_bind (fun _ => ?_) fun comma rest' _ hc => ?_
    · exact .pure ⟨.one hn, by simp⟩
    · refine .bind (reads_parameters rest' room) fun us xs rest'' _ hx => ?_
      exact .pure ⟨by rw [List.append_nil]; exact .more hn hc hx.1, by simpa using hx.2⟩

theorem reads_forStart : Reads ts (forStart n) fun used s _ => Starts used s := by
  unfold forStart
  refine .accept_bind (fun _ => ?_) fun t rest _ ht => ?_
  · refine .map ((reads_expressionStatement n ts).mono fun used s _ _ h => ?_)
    obtain ⟨us, close, e, rfl, he, hs, hc⟩ := h
    exact .some he hs hc
  · exact .pure (.none ht)

theorem reads_returnStatement {word : Token} (hw : word.kind = .return) :
    Reads ts (returnStatement n word) fun used s _ => Sentence .closed (word :: used) s := by
  unfold returnStatement
  refine .bind (reads_optionalUntil n ts .semicolon) fun us e rest _ he => ?_
  refine .expect_bind fun close rest' _ hc => ?_
  exact .pure (.leave _ hw he hc)

theorem reads_printStatement {word : Token} {newline : Bool}
    (hw : word.kind = if newline then .printLine else .print) :
    Reads ts (printStatement n newline word) fun used s _ => Sentence .closed (word :: used) s := by
  unfold printStatement
  refine .expect_bind fun opened rest _ ho => ?_
  refine .bind ((expressions_sound n).expression rest) fun us e rest₁ _ he => ?_
  refine .expect_bind fun closed rest₂ _ hc => ?_
  refine .expect_bind fun close rest₃ _ hs => ?_
  cases newline with
  | false => exact .pure (.print _ hw ho he hc hs)
  | true => exact .pure (.printLine _ hw ho he hc hs)

theorem reads_inputStatement {word : Token} (hw : word.kind = .input) :
    Reads ts (inputStatement n word) fun used s _ => Sentence .closed (word :: used) s := by
  unfold inputStatement
  refine .expect_bind fun opened rest _ ho => ?_
  refine .bind (reads_optionalUntil n rest .rightParen) fun us e rest₁ _ he => ?_
  refine .expect_bind fun closed rest₂ _ hc => ?_
  refine .expect_bind fun close rest₃ _ hs => ?_
  exact .pure (.input _ hw ho he hc hs)

/-- The loop of a `for` is the one that the grammar gives it. -/
theorem forLoop_cases (keyword : Span) (start : Option Stmt) (condition step : Option Expr) (body : Stmt) :
    ∃ e turn, Turn step body turn ∧ Condition condition e ∧
      Opened start (.loop e turn (keyword.through body.span)) (forLoop keyword start condition step body) := by
  have hc : Condition condition (condition.getD (.literal (.boolean true) keyword)) := by
    cases condition with
    | none => exact .always keyword
    | some e => exact .given e
  cases step with
  | none =>
    refine ⟨_, _, .plain body, hc, ?_⟩
    cases start with
    | none => exact .plain _
    | some s => exact .start s _ _
  | some e =>
    refine ⟨_, _, .step body (keyword.through body.span) (effect_statementOf e e.span), hc, ?_⟩
    cases start with
    | none => exact .plain _
    | some s => exact .start s _ _

end Parts

/-! ## Statements -/

/-- What the readers of statements do with a bound `n`. A statement that is left dangling was not followed by `else`. -/
structure StatementsSound (n : Nat) : Prop where
  declaration : ∀ ts, Reads ts (declaration n) fun used s _ => Declares used s
  functionDeclaration : ∀ ts {word}, word.kind = .function →
    Reads ts (functionDeclaration n word) fun used s _ => Declares (word :: used) s
  blockRest : ∀ ts, Reads ts (blockRest n) fun used b _ =>
    ∃ us, used = us ++ [b.2] ∧ Passage us b.1 ∧ b.2.kind = .rightBrace
  statement : ∀ ts, Reads ts (statement n) fun used s rest =>
    ∃ o, Sentence o used s ∧ (o = .dangling → ∀ t ∈ rest.head?, t.kind ≠ .else)

/-- The words and the brace that statements start with. -/
theorem lead_kind {k : TokenKind} {lead : Lead} (h : lead? k = some lead) :
    k = match lead with
      | .ifLead => .if
      | .whileLead => .while
      | .forLead => .for
      | .returnLead => .return
      | .printLead newline => if newline then .printLine else .print
      | .inputLead => .input
      | .blockLead => .leftBrace := by
  unfold lead? at h
  split at h <;> cases h <;> rfl

theorem unworded_of_lead {ts : List Token} (h : ∀ t ∈ ts.head?, lead? t.kind = none) : Unworded ts := by
  intro t ht
  have := h t ht
  refine ⟨?_, ?_, ?_⟩ <;> intro hk <;> rw [hk] at this <;> cases this

theorem Unworded.append_left {ts us : List Token} (h : Unworded (ts ++ us)) : Unworded ts := by
  cases ts with
  | nil => intro t ht; cases ht
  | cons t ts => exact h

section Step

variable {n : Nat} (ih : StatementsSound n) (ts : List Token)
include ih

theorem reads_declaration : Reads ts (declaration (n + 1)) fun used s _ => Declares used s := by
  rw [declaration]
  refine .accept_bind (fun _ => ?_) fun word rest _ hw => ?_
  · refine (ih.statement ts).mono fun used s rest _ h => ?_
    obtain ⟨o, hs, -⟩ := h
    exact .statement hs
  · exact ih.functionDeclaration rest hw

theorem reads_functionDeclaration {word : Token} (hw : word.kind = .function) :
    Reads ts (functionDeclaration (n + 1) word) fun used s _ => Declares (word :: used) s := by
  rw [functionDeclaration]
  refine .expect_bind fun name rest _ hn => ?_
  refine .expect_bind fun opened rest₁ _ ho => ?_
  -- The rest is the same whether there are parameters or not.
  have tail : ∀ {us : List Token} {params : List String} {rest₂ : List Token}, (us = [] ∧ params = []) ∨ Names us params →
      params.length ≤ 255 → Reads rest₂ (do
        let _ ← expect .rightParen .parametersClose
        let _ ← expect .leftBrace .functionBody
        let b ← blockRest n
        pure (.function name.lexeme params b.1 (word.span.through b.2.span)))
        fun more s _ => Declares (word :: name :: opened :: (us ++ more)) s := by
    intro us params rest₂ hps hlen
    refine .expect_bind fun closed rest₃ _ hc => ?_
    refine .expect_bind fun brace rest₄ _ hb => ?_
    refine .bind (ih.blockRest rest₄) fun vs body rest₅ _ hbody => ?_
    obtain ⟨body, close⟩ := body
    obtain ⟨ws, rfl, hss, hk⟩ := hbody
    exact .pure (by simpa using Declares.function (word.span.through close.span) hw hn ho hps hlen hc hb hss hk)
  refine .sees_bind fun b _ => ?_
  cases b with
  | true =>
    exact .bind (.pure (G := fun used xs _ => used = [] ∧ xs = []) ⟨rfl, rfl⟩) fun _ params _ _ h =>
      tail (Or.inl h) (by rw [h.2]; simp)
  | false => exact .bind (reads_parameters rest₁ maxArguments) fun _ _ _ _ h => tail (Or.inr h.1) h.2

theorem reads_blockRest : Reads ts (blockRest (n + 1)) fun used b _ =>
    ∃ us, used = us ++ [b.2] ∧ Passage us b.1 ∧ b.2.kind = .rightBrace := by
  rw [blockRest]
  refine .accept_bind (fun _ => ?_) fun close rest _ hc => ?_
  · refine .bind .atEnd fun used b rest hu hg => ?_
    subst hg
    cases b with
    | true => exact .fault
    | false =>
      refine .bind (ih.declaration rest) fun us s rest₁ _ hs => ?_
      refine .bind (ih.blockRest rest₁) fun vs body rest₂ _ hb => ?_
      obtain ⟨ws, rfl, hss, hk⟩ := hb
      exact .pure ⟨us ++ ws, by simp, .cons hs hss, hk⟩
  · exact .pure ⟨[], rfl, .nil, hc⟩

theorem reads_statement : Reads ts (statement (n + 1)) fun used s rest =>
    ∃ o, Sentence o used s ∧ (o = .dangling → ∀ t ∈ rest.head?, t.kind ≠ .else) := by
  -- Everything but the branches and the loops is closed.
  have close : ∀ {us : List Token} {r : Reader Stmt} {word : Token},
      Reads us r (fun used s _ => Sentence .closed (word :: used) s) → Reads us r fun used s rest =>
        ∃ o, Sentence o (word :: used) s ∧ (o = .dangling → ∀ t ∈ rest.head?, t.kind ≠ .else) :=
    fun h => h.mono fun _ _ _ _ hs => ⟨.closed, hs, fun ho => by cases ho⟩
  rw [statement]
  refine .acceptAs_bind (fun hn => ?_) fun lead word rest _ hl => ?_
  · refine (reads_expressionStatement n ts).mono fun used s rest hu h => ?_
    obtain ⟨us, semicolon, e, rfl, he, hs, hc⟩ := h
    have hw : Unworded us := by
      have := unworded_of_lead hn
      rw [hu, List.append_assoc] at this
      exact this.append_left
    exact ⟨.closed, .effect he hs hw hc, fun ho => by cases ho⟩
  · have hk := lead_kind hl
    cases lead with
    | ifLead =>
      refine .expect_bind fun opened rest₁ _ ho => ?_
      refine .bind ((expressions_sound n).expression rest₁) fun us e rest₂ _ he => ?_
      refine .expect_bind fun closed rest₃ _ hc => ?_
      refine .bind (ih.statement rest₃) fun vs yes rest₄ _ hy => ?_
      obtain ⟨o, hy, hd⟩ := hy
      refine .accept_bind (fun hn => ?_) fun other rest₅ hr hother => ?_
      · exact .pure ⟨.dangling, by simpa using Sentence.branch (word.span.through yes.span) hk ho he hc hy, fun _ => hn⟩
      · refine .bind (ih.statement rest₅) fun ws no rest₆ _ hno => ?_
        obtain ⟨o', hno, hd'⟩ := hno
        -- The branch before the `else` cannot be dangling: it would have taken it.
        have hclosed : o = .closed := by
          cases o with
          | closed => rfl
          | dangling => exact absurd hother (hd rfl other (by rw [hr]; rfl))
        subst hclosed
        exact .pure ⟨o', by simpa using Sentence.branchElse (word.span.through no.span) hk ho he hc hy hother hno, hd'⟩
    | whileLead =>
      refine .expect_bind fun opened rest₁ _ ho => ?_
      refine .bind ((expressions_sound n).expression rest₁) fun us e rest₂ _ he => ?_
      refine .expect_bind fun closed rest₃ _ hc => ?_
      refine .bind (ih.statement rest₃) fun vs body rest₄ _ hb => ?_
      obtain ⟨o, hb, hd⟩ := hb
      exact .pure ⟨o, by simpa using Sentence.loop (word.span.through body.span) hk ho he hc hb, hd⟩
    | forLead =>
      refine .expect_bind fun opened rest₁ _ ho => ?_
      refine .bind (reads_forStart n rest₁) fun as start rest₂ _ hs => ?_
      refine .bind (reads_optionalUntil n rest₂ .semicolon) fun cs condition rest₃ _ hc => ?_
      refine .expect_bind fun middle rest₄ _ hm => ?_
      refine .bind (reads_optionalUntil n rest₄ .rightParen) fun us step rest₅ _ hst => ?_
      refine .expect_bind fun closed rest₆ _ hcl => ?_
      refine .bind (ih.statement rest₆) fun vs body rest₇ _ hb => ?_
      obtain ⟨o, hb, hd⟩ := hb
      obtain ⟨e, turn, ht, he, hw⟩ := forLoop_cases word.span start condition step body
      exact .pure ⟨o, by simpa using Sentence.forLoop _ hk ho hs hc hm hst hcl hb ht he hw, hd⟩
    | returnLead => exact close (reads_returnStatement n rest hk)
    | printLead newline => exact close (reads_printStatement n rest hk)
    | inputLead => exact close (reads_inputStatement n rest hk)
    | blockLead =>
      refine close (.bind (ih.blockRest rest) fun us body rest₁ _ hb => ?_)
      obtain ⟨body, brace⟩ := body
      obtain ⟨ws, rfl, hss, hbrace⟩ := hb
      exact .pure (by simpa using Sentence.block (word.span.through brace.span) hk hss hbrace)

end Step

/-- **The readers of statements take what the grammar says**, whatever their bound. -/
theorem statements_sound : ∀ n, StatementsSound n
  | 0 => by
    constructor <;> intros <;> simp only [declaration, functionDeclaration, blockRest, statement] <;> exact .exhausted
  | n + 1 =>
    have ih := statements_sound n
    { declaration := reads_declaration ih
      functionDeclaration := fun ts _ => reads_functionDeclaration ih ts
      blockRest := reads_blockRest ih
      statement := reads_statement ih }

/-! ## Programs -/

theorem Sentence.ne_nil {o : Ending} {ts : List Token} {s : Stmt} (h : Sentence o ts s) : ts ≠ [] := by
  cases h <;> simp

theorem Declares.ne_nil {ts : List Token} {s : Stmt} (h : Declares ts s) : ts ≠ [] := by
  cases h with
  | function => simp
  | statement hs => exact hs.ne_nil

/-- A declaration that is read is spelled by the tokens taken, and at least one is. -/
theorem nextDeclaration_ok {n : Nat} {c c' : Cursor} {s : Stmt} (h : nextDeclaration n c = (.ok s, c')) :
    ∃ used, c.ahead = used ++ c'.ahead ∧ Declares used s ∧ c'.ahead.length < c.ahead.length := by
  unfold nextDeclaration at h
  split at h
  · rename_i hr
    cases h
    obtain ⟨used, hu, hd⟩ := ((statements_sound n).declaration c.ahead).done rfl hr
    refine ⟨used, hu, hd, ?_⟩
    have := List.length_pos_iff.2 hd.ne_nil
    rw [hu, List.length_append]
    omega
  · cases h
  · cases h

/-- Declarations that are read up to the end are spelled by all tokens ahead, if there are turns for all of them. -/
theorem declarations_ok {n : Nat} {p : Program} : ∀ {turns : Nat} {done : List Stmt} {c : Cursor},
    c.ahead.length < turns → declarations n done turns c = .ok p → ∃ ss, p = done.reverse ++ ss ∧ Passage c.ahead ss
  | 0, _, _, hl, _ => absurd hl (Nat.not_lt_zero _)
  | turns + 1, done, c, hl, h => by
    rw [declarations] at h
    split at h
    · rename_i he
      cases h
      have : c.ahead = [] := by simpa [Cursor.atEnd] using he
      exact ⟨[], by simp, by rw [this]; exact .nil⟩
    · split at h
      · rename_i s c' hn
        obtain ⟨used, hu, hd, hlt⟩ := nextDeclaration_ok hn
        obtain ⟨ss, hp, hss⟩ := declarations_ok (by omega) h
        exact ⟨s :: ss, by simp [hp], by rw [hu]; exact .cons hd hss⟩
      · cases h

/-- **The parser accepts only the grammar and loses nothing.** A program that is read from a list of tokens is spelled,
by the rules of the grammar, by all the tokens before the one that ends the text, each used once and in order. -/
theorem parse_in_grammar {tokens : List Token} {program : Program} (h : parse tokens = .ok program) :
    Passage (tokens.takeWhile fun t => !t.isEof) program := by
  obtain ⟨ss, rfl, hss⟩ := declarations_ok (Nat.lt_succ_self _) h
  exact hss

/-- The tokens of `if (a) if (b) c(); else d = -e.f == g[h] or i;`. -/
def elseTokens : List Token :=
  [(.if, "if"), (.leftParen, "("), (.identifier, "a"), (.rightParen, ")"), (.if, "if"), (.leftParen, "("),
    (.identifier, "b"), (.rightParen, ")"), (.identifier, "c"), (.leftParen, "("), (.rightParen, ")"),
    (.semicolon, ";"), (.else, "else"), (.identifier, "d"), (.equal, "="), (.minus, "-"), (.identifier, "e"),
    (.dot, "."), (.identifier, "f"), (.equalEqual, "=="), (.identifier, "g"), (.leftBracket, "["),
    (.identifier, "h"), (.rightBracket, "]"), (.or, "or"), (.identifier, "i"), (.semicolon, ";"),
    (.eof, "")].map fun t => ⟨t.1, t.2, none, ⟨0, 0, 1⟩⟩

/-- The `else` goes to the inner `if`, and the grammar says so too. -/
theorem parse_in_grammar_elseTokens :
    ∃ e e' yes no s s', parse elseTokens = .ok [.branch e (.branch e' yes (some no) s) none s'] ∧
      Passage elseTokens.dropLast [.branch e (.branch e' yes (some no) s) none s'] :=
  ⟨_, _, _, _, _, _, rfl, @parse_in_grammar elseTokens _ rfl⟩

end StepScript.Grammar
