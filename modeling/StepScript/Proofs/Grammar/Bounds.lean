import StepScript.Proofs.Grammar.Phrases

/-!
# The bound on nested steps is never met

The readers go down in a bound on nested steps, and would come back with nothing if it was too small. It never is:
every token that a reader takes pays for twenty-four steps, and no chain of readers that takes no token is longer.

`Returns N M r` says that the reader comes back whenever at most `N` tokens are ahead, and leaves fewer than `M` of
them if it is done; so `Returns N N r` is a reader that takes a token. There is one rule for each way to put readers
together, then one lemma for each reader, by induction on the bound. In the end the next declaration is read or fails,
but is not given up (`declaration_returns`).
-/

namespace StepScript

/-- With at most `N` tokens ahead the reader comes back, and if it is done it leaves fewer than `M`. -/
structure Returns {α : Type} (N M : Nat) (r : Reader α) : Prop where
  back : ∀ {c : Cursor}, c.ahead.length ≤ N → r c ≠ .exhausted
  left : ∀ {c c' : Cursor} {a : α}, c.ahead.length ≤ N → r c = .done a c' → c'.ahead.length < M

namespace Returns

section Rules

variable {α β : Type} {N M L : Nat}

theorem weaken {r : Reader α} (h : Returns N M r) (hM : M ≤ L) : Returns N L r where
  back := h.back
  left hc hr := Nat.lt_of_lt_of_le (h.left hc hr) hM

theorem pure {a : α} (h : N < M) : Returns N M (Pure.pure a : Reader α) where
  back _ hr := by cases hr
  left hc hr := by
    cases hr
    exact Nat.lt_of_le_of_lt hc h

theorem fault {f : GrammarFault} : Returns N M (Reader.fault f : Reader α) where
  back _ hr := by cases hr
  left _ hr := by cases hr

theorem faultAt {t : Token} {f : GrammarFault} : Returns N M (Reader.faultAt t f : Reader α) where
  back _ hr := by cases hr
  left _ hr := by cases hr

/-- One reader after the other. -/
theorem bind {r : Reader α} {f : α → Reader β} (hr : Returns N M r)
    (hf : ∀ a, 0 < M → Returns (M - 1) L (f a)) : Returns N L (r >>= f) := by
  constructor
  · intro c hc he
    change Reader.bind r f c = _ at he
    unfold Reader.bind at he
    split at he
    · rename_i ha
      have hl := hr.left hc ha
      exact (hf _ (by omega)).back (by omega) he
    · cases he
    · rename_i ha
      exact hr.back hc ha
  · intro c c' b hc h
    change Reader.bind r f c = _ at h
    unfold Reader.bind at h
    split at h
    · rename_i ha
      have hl := hr.left hc ha
      exact (hf _ (by omega)).left (by omega) h
    · cases h
    · cases h

theorem map {r : Reader α} {f : α → β} (hr : Returns N M r) : Returns N M (f <$> r) :=
  bind (f := fun a => Pure.pure (f a)) hr fun _ _ => pure (by omega)

theorem sees_bind {kind : TokenKind} {k : Bool → Reader β} (h : ∀ b, Returns N M (k b)) :
    Returns N M (Reader.sees kind >>= k) where
  back hc := (h _).back hc
  left hc hr := (h _).left hc hr

theorem atEnd_bind {k : Bool → Reader β} (h : ∀ b, Returns N M (k b)) : Returns N M (Reader.atEnd >>= k) where
  back hc := (h _).back hc
  left hc hr := (h _).left hc hr

theorem expect (kind : TokenKind) (f : GrammarFault) : Returns N N (Reader.expect kind f) := by
  constructor
  · intro c _ he
    unfold Reader.expect at he
    split at he
    · split at he <;> cases he
    · cases he
  · intro c c' t hc hr
    unfold Reader.expect at hr
    split at hr
    · rename_i ha
      rw [ha, List.length_cons] at hc
      split at hr <;> cases hr
      exact hc
    · cases hr

/-- A reader that takes a token or only looks, and what comes after it. -/
theorem optional_bind {r : Reader (Option α)} {k : Option α → Reader β}
    (hr : ∀ c, (∃ a t ts, c.ahead = t :: ts ∧ r c = .done (some a) ⟨some t, ts⟩) ∨ r c = .done none c)
    (hn : Returns N M (k none)) (hs : ∀ a, 0 < N → Returns (N - 1) M (k (some a))) : Returns N M (r >>= k) := by
  constructor
  · intro c hc
    rcases hr c with ⟨a, t, ts, ha, hd⟩ | hd
    · rw [ha, List.length_cons] at hc
      rw [Reader.bind_of_done hd]
      exact (hs a (by omega)).back (show ts.length ≤ N - 1 by omega)
    · rw [Reader.bind_of_done hd]
      exact hn.back hc
  · intro c c' b hc hb
    rcases hr c with ⟨a, t, ts, ha, hd⟩ | hd
    · rw [ha, List.length_cons] at hc
      rw [Reader.bind_of_done hd] at hb
      exact (hs a (by omega)).left (show ts.length ≤ N - 1 by omega) hb
    · rw [Reader.bind_of_done hd] at hb
      exact hn.left hc hb

theorem accept_bind {kind : TokenKind} {k : Option Token → Reader β} (hn : Returns N M (k none))
    (hs : ∀ t, 0 < N → Returns (N - 1) M (k (some t))) : Returns N M (Reader.accept kind >>= k) := by
  refine optional_bind (fun c => ?_) hn hs
  unfold Reader.accept
  split
  · rename_i t ts ha
    split
    · exact Or.inl ⟨t, t, ts, ha, rfl⟩
    · exact Or.inr rfl
  · exact Or.inr rfl

theorem acceptAs_bind {classify : TokenKind → Option α} {k : Option (α × Token) → Reader β}
    (hn : Returns N M (k none)) (hs : ∀ a, 0 < N → Returns (N - 1) M (k (some a))) :
    Returns N M (Reader.acceptAs classify >>= k) := by
  refine optional_bind (fun c => ?_) hn hs
  unfold Reader.acceptAs
  split
  · rename_i t ts ha
    split
    · rename_i a _
      exact Or.inl ⟨(a, t), t, ts, ha, rfl⟩
    · exact Or.inr rfl
  · exact Or.inr rfl

end Rules

end Returns

namespace Grammar

open Reader

/-! ## Expressions -/

theorem returns_assignTo {N : Nat} (target : Expr) (equals : Token) (value : Expr) :
    Returns N (N + 1) (assignTo target equals value) := by
  unfold assignTo
  split
  · exact .pure (Nat.lt_succ_self N)
  · exact .pure (Nat.lt_succ_self N)
  · exact .pure (Nat.lt_succ_self N)
  · exact .faultAt

theorem returns_takeOpening {N : Nat} : Returns N N takeOpening := by
  constructor
  · intro c _ he
    unfold takeOpening at he
    split at he
    · cases he
    · split at he <;> cases he
  · intro c c' o hc hr
    unfold takeOpening at hr
    split at hr
    · cases hr
    · rename_i ha
      rw [ha, List.length_cons] at hc
      split at hr <;> cases hr
      exact hc

/-- The readers of expressions come back, with a bound that the tokens ahead pay for. Those that begin with an operand
take a token. -/
structure ExpressionsReturn (n : Nat) : Prop where
  expression : ∀ N, 24 * N + 15 ≤ n → Returns N N (expression n)
  tier : ∀ N t, 24 * N + t.rank.cost ≤ n → Returns N N (tier n t)
  operand : ∀ N t, 24 * N + t.rank.cost ≤ n + 1 → Returns N N (operand n t)
  tierRest : ∀ N t left, 24 * N + 1 ≤ n → Returns N (N + 1) (tierRest n t left)
  signed : ∀ N, 24 * N + 2 ≤ n → Returns N N (signed n)
  suffixes : ∀ N e, 24 * N + 1 ≤ n → Returns N (N + 1) (suffixes n e)
  listUntil : ∀ N close room, 24 * N + 17 ≤ n → Returns N (N + 1) (listUntil n close room)
  list : ∀ N room, 24 * N + 16 ≤ n → Returns N N (list n room)
  primary : ∀ N, 24 * N + 1 ≤ n → Returns N N (primary n)

theorem Tier.cost_bounds (t : Tier) : 4 ≤ t.rank.cost ∧ t.rank.cost ≤ 14 := by cases t <;> decide

theorem cost_of_next {t q : Tier} (h : t.next? = some q) : q.rank.cost + 2 = t.rank.cost := by
  cases t <;> cases h <;> rfl

section Step

variable {n : Nat} (ih : ExpressionsReturn n) (N : Nat)
include ih

theorem returns_expression (h : 24 * N + 15 ≤ n + 1) : Returns N N (expression (n + 1)) := by
  rw [expression]
  refine .bind (ih.tier N .or (show _ + 14 ≤ _ by omega)) fun target hN => ?_
  refine .accept_bind (.pure (by omega)) fun equals he => ?_
  refine .bind (ih.expression (N - 1 - 1) (by omega)) fun value hv => ?_
  exact (returns_assignTo target equals value).weaken (by omega)

theorem returns_tier (t : Tier) (h : 24 * N + t.rank.cost ≤ n + 1) : Returns N N (tier (n + 1) t) := by
  have hc := t.cost_bounds
  rw [tier]
  refine .bind (ih.operand N t h) fun first hN => ?_
  exact (ih.tierRest (N - 1) t first (by omega)).weaken (by omega)

theorem returns_operand (t : Tier) (h : 24 * N + t.rank.cost ≤ n + 1 + 1) : Returns N N (operand (n + 1) t) := by
  have hc := t.cost_bounds
  rw [operand]
  split
  · rename_i tighter ht
    have hq := cost_of_next ht
    exact ih.tier N tighter (by omega)
  · exact ih.signed N (by omega)

theorem returns_tierRest (t : Tier) (left : Expr) (h : 24 * N + 1 ≤ n + 1) :
    Returns N (N + 1) (tierRest (n + 1) t left) := by
  have hc := t.cost_bounds
  rw [tierRest]
  refine .acceptAs_bind (.pure (Nat.lt_succ_self N)) fun joint hN => ?_
  refine .bind (ih.operand (N - 1) t (by omega)) fun right hr => ?_
  exact (ih.tierRest (N - 1 - 1) t _ (by omega)).weaken (by omega)

theorem returns_signed (h : 24 * N + 2 ≤ n + 1) : Returns N N (signed (n + 1)) := by
  rw [signed]
  refine .acceptAs_bind ?_ fun op hN => ?_
  · refine .bind (ih.primary N (by omega)) fun first hN => ?_
    exact (ih.suffixes (N - 1) first (by omega)).weaken (by omega)
  · exact .bind (ih.signed (N - 1) (by omega)) fun inner hi => .pure (by omega)

theorem returns_suffixes (e : Expr) (h : 24 * N + 1 ≤ n + 1) : Returns N (N + 1) (suffixes (n + 1) e) := by
  rw [suffixes]
  refine .acceptAs_bind (.pure (Nat.lt_succ_self N)) fun suffix hN => ?_
  obtain ⟨suffix, opened⟩ := suffix
  cases suffix with
  | arguments =>
    refine .bind (ih.listUntil (N - 1) .rightParen _ (by omega)) fun args ha => ?_
    refine .bind (.expect _ _) fun close hc => ?_
    exact (ih.suffixes _ _ (by omega)).weaken (by omega)
  | index =>
    refine .bind (ih.expression (N - 1) (by omega)) fun index hi => .bind (.expect _ _) fun close hc => ?_
    exact (ih.suffixes _ _ (by omega)).weaken (by omega)
  | property =>
    refine .bind (.expect _ _) fun name hc => ?_
    exact (ih.suffixes _ _ (by omega)).weaken (by omega)

theorem returns_listUntil (close : TokenKind) (room : Option Nat) (h : 24 * N + 17 ≤ n + 1) :
    Returns N (N + 1) (listUntil (n + 1) close room) := by
  rw [listUntil]
  refine .sees_bind fun b => ?_
  cases b with
  | true => exact .pure (Nat.lt_succ_self N)
  | false => exact (ih.list N room (by omega)).weaken (by omega)

theorem returns_list (room : Option Nat) (h : 24 * N + 16 ≤ n + 1) : Returns N N (list (n + 1) room) := by
  by_cases hz : room = some 0
  · rw [hz, list]
    exact .fault
  · rw [list]
    · refine .bind (ih.expression N (by omega)) fun e hN => .accept_bind (.pure (by omega)) fun comma hc => ?_
      exact .bind (ih.list (N - 1 - 1) _ (by omega)) fun es hes => .pure (by omega)
    · exact hz

theorem returns_primary (h : 24 * N + 1 ≤ n + 1) : Returns N N (primary (n + 1)) := by
  rw [primary]
  refine .bind returns_takeOpening fun o hN => ?_
  obtain ⟨o, t⟩ := o
  cases o with
  | whole e => exact .pure (by omega)
  | group =>
    refine .bind (ih.expression (N - 1) (by omega)) fun inner hi => .bind (.expect _ _) fun close hc => ?_
    exact .pure (by omega)
  | array =>
    refine .bind (ih.listUntil (N - 1) .rightBracket none (by omega)) fun items hi => ?_
    exact .bind (.expect _ _) fun close hc => .pure (by omega)
  | hollow => exact .faultAt
  | none => exact .faultAt

end Step

/-- **The readers of expressions come back** when the tokens ahead pay for the bound. -/
theorem expressions_return : ∀ n, ExpressionsReturn n
  | 0 => by
    constructor
    case operand =>
      intro N t h
      have hc := t.cost_bounds
      omega
    case tier =>
      intro N t h
      have hc := t.cost_bounds
      omega
    all_goals intros; omega
  | n + 1 =>
    have ih := expressions_return n
    { expression := returns_expression ih
      tier := returns_tier ih
      operand := returns_operand ih
      tierRest := returns_tierRest ih
      signed := returns_signed ih
      suffixes := returns_suffixes ih
      listUntil := returns_listUntil ih
      list := returns_list ih
      primary := returns_primary ih }

/-! ## Statements -/

section Parts

variable {n N : Nat}

theorem returns_optionalUntil (close : TokenKind) (h : 24 * N + 15 ≤ n) :
    Returns N (N + 1) (optionalUntil n close) := by
  unfold optionalUntil
  refine .sees_bind fun b => ?_
  cases b with
  | true => exact .pure (Nat.lt_succ_self N)
  | false => exact .map (((expressions_return n).expression N h).weaken (by omega))

theorem returns_expressionStatement (h : 24 * N + 15 ≤ n) : Returns N N (expressionStatement n) := by
  unfold expressionStatement
  refine .bind ((expressions_return n).expression N h) fun e hN => .bind (.expect _ _) fun close hc => ?_
  exact .pure (by omega)

theorem returns_parameters : ∀ {room N : Nat}, Returns N (N + 1) (parameters room)
  | 0, N => by
    rw [parameters]
    exact .fault
  | room + 1, N => by
    rw [parameters]
    refine .bind (.expect _ _) fun name hN => .accept_bind (.pure (by omega)) fun comma hc => ?_
    exact .bind returns_parameters fun names hs => .pure (by omega)

theorem returns_forStart (h : 24 * N + 15 ≤ n) : Returns N N (forStart n) := by
  unfold forStart
  exact .accept_bind (.map (returns_expressionStatement h)) fun close hN => .pure (by omega)

theorem returns_returnStatement (keyword : Token) (h : 24 * N + 15 ≤ n) :
    Returns N N (returnStatement n keyword) := by
  unfold returnStatement
  refine .bind (returns_optionalUntil .semicolon h) fun value hN => .bind (.expect _ _) fun close hc => ?_
  exact .pure (by omega)

theorem returns_printStatement (newline : Bool) (keyword : Token) (h : 24 * N + 15 ≤ n) :
    Returns N N (printStatement n newline keyword) := by
  unfold printStatement
  refine .bind (.expect _ _) fun opened hN => ?_
  refine .bind ((expressions_return n).expression (N - 1) (by omega)) fun e he => ?_
  exact .bind (.expect _ _) fun closed hc => .bind (.expect _ _) fun close hk => .pure (by omega)

theorem returns_inputStatement (keyword : Token) (h : 24 * N + 15 ≤ n) :
    Returns N N (inputStatement n keyword) := by
  unfold inputStatement
  refine .bind (.expect _ _) fun opened hN => .bind (returns_optionalUntil .rightParen (by omega)) fun prompt hp => ?_
  exact .bind (.expect _ _) fun closed hc => .bind (.expect _ _) fun close hk => .pure (by omega)

end Parts

/-- The readers of statements come back, with a bound that the tokens ahead pay for, and take a token. -/
structure StatementsReturn (n : Nat) : Prop where
  declaration : ∀ N, 24 * N + 17 ≤ n → Returns N N (declaration n)
  functionDeclaration : ∀ N keyword, 24 * N + 1 ≤ n → Returns N N (functionDeclaration n keyword)
  blockRest : ∀ N, 24 * N + 18 ≤ n → Returns N N (blockRest n)
  statement : ∀ N, 24 * N + 16 ≤ n → Returns N N (statement n)

section Step

variable {n : Nat} (ih : StatementsReturn n) (N : Nat)
include ih

theorem returns_declaration (h : 24 * N + 17 ≤ n + 1) : Returns N N (declaration (n + 1)) := by
  rw [declaration]
  refine .accept_bind (ih.statement N (by omega)) fun keyword hN => ?_
  exact (ih.functionDeclaration (N - 1) keyword (by omega)).weaken (by omega)

theorem returns_functionDeclaration (keyword : Token) (h : 24 * N + 1 ≤ n + 1) :
    Returns N N (functionDeclaration (n + 1) keyword) := by
  rw [functionDeclaration]
  refine .bind (.expect _ _) fun name hN => .bind (.expect _ _) fun opened ho => ?_
  -- The rest is the same whether there are parameters or not.
  have tail : ∀ params : List String, Returns (N - 1 - 1) N (do
      let _ ← expect .rightParen .parametersClose
      let _ ← expect .leftBrace .functionBody
      let b ← blockRest n
      pure (Stmt.function name.lexeme params b.1 (keyword.span.through b.2.span))) := by
    intro params
    refine .bind (.expect _ _) fun closed hc => .bind (.expect _ _) fun brace hb => ?_
    exact .bind (ih.blockRest _ (by omega)) fun body hbody => .pure (by omega)
  refine .sees_bind fun b => ?_
  cases b with
  | true => exact .bind (.pure (Nat.lt_succ_self _)) fun params _ => tail params
  | false => exact .bind returns_parameters fun params _ => tail params

theorem returns_blockRest (h : 24 * N + 18 ≤ n + 1) : Returns N N (blockRest (n + 1)) := by
  rw [blockRest]
  refine .accept_bind (.atEnd_bind fun b => ?_) fun close hN => .pure (by omega)
  cases b with
  | true => exact .fault
  | false =>
    refine .bind (ih.declaration N (by omega)) fun s hN => .bind (ih.blockRest (N - 1) (by omega)) fun body hb => ?_
    exact .pure (by omega)

theorem returns_statement (h : 24 * N + 16 ≤ n + 1) : Returns N N (statement (n + 1)) := by
  have hexpr := (expressions_return n).expression
  rw [statement]
  refine .acceptAs_bind (returns_expressionStatement (by omega)) fun lead hN => ?_
  obtain ⟨lead, keyword⟩ := lead
  cases lead with
  | ifLead =>
    refine .bind (.expect _ _) fun opened ho => .bind (hexpr _ (by omega)) fun condition he => ?_
    refine .bind (.expect _ _) fun closed hc => .bind (ih.statement _ (by omega)) fun yes hy => ?_
    refine .accept_bind (.pure (by omega)) fun other hother => ?_
    exact .bind (ih.statement _ (by omega)) fun no hno => .pure (by omega)
  | whileLead =>
    refine .bind (.expect _ _) fun opened ho => .bind (hexpr _ (by omega)) fun condition he => ?_
    refine .bind (.expect _ _) fun closed hc => .bind (ih.statement _ (by omega)) fun body hb => ?_
    exact .pure (by omega)
  | forLead =>
    refine .bind (.expect _ _) fun opened ho => .bind (returns_forStart (by omega)) fun start hs => ?_
    refine .bind (returns_optionalUntil .semicolon (by omega)) fun condition he => ?_
    refine .bind (.expect _ _) fun middle hm => .bind (returns_optionalUntil .rightParen (by omega)) fun step hst => ?_
    refine .bind (.expect _ _) fun closed hc => ?_
    exact .bind (ih.statement _ (by omega)) fun body hb => .pure (by omega)
  | returnLead => exact (returns_returnStatement keyword (by omega)).weaken (by omega)
  | printLead newline => exact (returns_printStatement newline keyword (by omega)).weaken (by omega)
  | inputLead => exact (returns_inputStatement keyword (by omega)).weaken (by omega)
  | blockLead => exact .bind (ih.blockRest _ (by omega)) fun body hb => .pure (by omega)

end Step

/-- **The readers of statements come back** when the tokens ahead pay for the bound. -/
theorem statements_return : ∀ n, StatementsReturn n
  | 0 => by constructor <;> intros <;> omega
  | n + 1 =>
    have ih := statements_return n
    { declaration := returns_declaration ih
      functionDeclaration := returns_functionDeclaration ih
      blockRest := returns_blockRest ih
      statement := returns_statement ih }

/-- With the bound that a list of tokens is given, the next declaration is read or fails. -/
theorem declaration_returns {n : Nat} {c : Cursor} (h : bound c.ahead.length ≤ n) : declaration n c ≠ .exhausted :=
  ((statements_return n).declaration c.ahead.length (by unfold bound at h; omega)).back (Nat.le_refl _)

end Grammar

end StepScript
