import StepScript.Proofs.Grammar.Passing
import StepScript.Proofs.Grammar.Soundness
import StepScript.Proofs.Tree.Bare

/-!
# Phrases of the grammar are read

Tokens that spell an expression are read as that expression, modulo spans, whatever stands behind them, as long as it
does not go on with the phrase (`Spells.gets`).

A phrase of a rank whose operators group to the left is read from its left end, so the readers of such a rank hold a
tree of what was read so far and go on with it (`restAt`). `Fits r ts e` says that the tokens `ts` bring the reader of
the rank `r` to that point with a tree like `e`; one rule of the grammar after the other keeps it. The bound on nested
steps is counted along: every token pays for twenty-four of them.
-/

namespace StepScript.Grammar

open Reader

/-! ## What goes on with a phrase -/

/-- How tight a rank is. -/
def Rank.level : Rank → Nat
  | assignment => 0
  | or => 1
  | and => 2
  | equality => 3
  | comparison => 4
  | term => 5
  | factor => 6
  | sign => 7
  | access => 8
  | operand => 9

/-- How many nested steps it takes to come to the first token of a phrase of a rank. -/
def Rank.cost : Rank → Nat
  | assignment => 15
  | or => 14
  | and => 12
  | equality => 10
  | comparison => 8
  | term => 6
  | factor => 4
  | sign => 2
  | access => 2
  | operand => 1

/-- The rank of the phrase that a token goes on with, if it stands behind one. -/
def grip? : TokenKind → Option Rank
  | .equal => some .assignment
  | .or => some .or
  | .and => some .and
  | .equalEqual | .bangEqual => some .equality
  | .less | .lessEqual | .greater | .greaterEqual => some .comparison
  | .plus | .minus => some .term
  | .star | .slash => some .factor
  | .leftParen | .leftBracket | .dot => some .access
  | _ => none

namespace Rank

/-- What stands behind goes on with no phrase of this rank or a tighter one. -/
def Stops (r : Rank) (rest : List Token) : Prop := ∀ t ∈ rest.head?, ∀ g, grip? t.kind = some g → g.level < r.level

/-- What stands behind goes on with no phrase of a tighter rank, and with no assignment at all. -/
def Leaves (r : Rank) (rest : List Token) : Prop :=
  ∀ t ∈ rest.head?, ∀ g, grip? t.kind = some g → g.level ≤ r.level ∧ r ≠ .assignment

variable {r q : Rank} {rest : List Token}

theorem Next.level_eq (h : r.Next q) : q.level = r.level + 1 := by cases h <;> rfl

theorem Stops.leaves (h : r.Stops rest) : r.Leaves rest := by
  intro t ht g hg
  have hl := h t ht g hg
  refine ⟨Nat.le_of_lt hl, ?_⟩
  rintro rfl
  exact absurd hl (Nat.not_lt_zero _)

theorem Leaves.stops (h : r.Leaves rest) (hq : r.Next q) : q.Stops rest := by
  intro t ht g hg
  have hl := (h t ht g hg).1
  rw [hq.level_eq]
  omega

/-- Nothing goes on with a phrase once an assignment is left alone. -/
theorem Leaves.stops_of_assignment (h : assignment.Leaves rest) (q : Rank) : q.Stops rest :=
  fun t ht g hg => absurd rfl (h t ht g hg).2

/-- No token goes on with a phrase at the rank of signs. -/
theorem Leaves.stops_of_sign (h : sign.Leaves rest) : sign.Stops rest := by
  intro t ht g hg
  refine Nat.lt_of_le_of_ne (h t ht g hg).1 ?_
  unfold grip? at hg
  split at hg <;> cases hg <;> decide

theorem Stops.of_grip {t : Token} {ts : List Token} (h : ∀ g, grip? t.kind = some g → g.level < r.level) :
    r.Stops (t :: ts) := by
  intro u hu
  cases hu
  exact h

/-- A token that goes on with nothing ends every phrase. -/
theorem Stops.of_free {t : Token} {ts : List Token} (h : grip? t.kind = none) : r.Stops (t :: ts) :=
  .of_grip fun g hg => by rw [h] at hg; cases hg

end Rank

/-! ## The readers of a rank -/

/-- The reader of a rank. -/
def readAt : Rank → Nat → Reader Expr
  | .assignment, n => expression n
  | .or, n => tier n .or
  | .and, n => tier n .and
  | .equality, n => tier n .equality
  | .comparison, n => tier n .comparison
  | .term, n => tier n .term
  | .factor, n => tier n .factor
  | .sign, n => signed n
  | .access, n => signed n
  | .operand, n => primary n

/-- The reader of a rank once it holds a tree; ranks that do not group to the left are done with it. -/
def restAt : Rank → Expr → Nat → Reader Expr
  | .or, e, n => tierRest n .or e
  | .and, e, n => tierRest n .and e
  | .equality, e, n => tierRest n .equality e
  | .comparison, e, n => tierRest n .comparison e
  | .term, e, n => tierRest n .term e
  | .factor, e, n => tierRest n .factor e
  | .access, e, n => suffixes n e
  | .assignment, e, _ | .sign, e, _ | .operand, e, _ => pure e

/-- The tokens bring the reader of a rank to a tree like `e`, with a bound that they pay for. -/
def Fits (r : Rank) (ts : List Token) (e : Expr) : Prop :=
  ∀ rest, r.Leaves rest → ∃ N d, 0 < N ∧ N + d + 24 ≤ 24 * ts.length + r.cost ∧
    Passes (fun n => readAt r (n + d)) N ts rest (fun e' => e'.bare = e.bare) (restAt r)

theorem readAt_tier (t : Tier) : readAt t.rank = fun n => tier n t := by cases t <;> rfl

theorem restAt_tier (t : Tier) : restAt t.rank = fun e n => tierRest n t e := by cases t <;> rfl

theorem grip_of_joint {t : Tier} {k : TokenKind} {j : Joint} (h : t.joint? k = some j) : grip? k = some t.rank := by
  unfold Tier.joint? at h
  split at h <;> cases h <;> rfl

theorem joint_of_joins {r : Rank} {k : TokenKind} {j : Joint} (h : Joins r k j) :
    ∃ t : Tier, t.rank = r ∧ t.joint? k = some j := by
  cases h with
  | or => exact ⟨.or, rfl, rfl⟩
  | and => exact ⟨.and, rfl, rfl⟩
  | equal | notEqual => exact ⟨.equality, rfl, rfl⟩
  | less | lessEqual | greater | greaterEqual => exact ⟨.comparison, rfl, rfl⟩
  | add | subtract => exact ⟨.term, rfl, rfl⟩
  | multiply | divide => exact ⟨.factor, rfl, rfl⟩

theorem grip_of_suffix {k : TokenKind} {s : Suffix} (h : suffix? k = some s) : grip? k = some .access := by
  unfold suffix? at h
  split at h <;> cases h <;> rfl

theorem operand_succ {t : Tier} {q : Rank} (h : t.rank.Next q) (n : Nat) : operand (n + 1) t = readAt q n := by
  cases t <;> cases h <;> rfl

section Rest

variable {rest : List Token}

theorem Rank.Stops.joint_eq_none {t : Tier} (h : t.rank.Stops rest) : ∀ u ∈ rest.head?, t.joint? u.kind = none := by
  intro u hu
  cases hj : t.joint? u.kind with
  | none => rfl
  | some j => exact absurd (h u hu _ (grip_of_joint hj)) (Nat.lt_irrefl _)

theorem Rank.Stops.suffix_eq_none (h : Rank.access.Stops rest) : ∀ u ∈ rest.head?, suffix? u.kind = none := by
  intro u hu
  cases hs : suffix? u.kind with
  | none => rfl
  | some s => exact absurd (h u hu _ (grip_of_suffix hs)) (Nat.lt_irrefl _)

/-- Where nothing goes on with a phrase, its tree is complete. -/
theorem gets_restAt {r : Rank} (h : r.Stops rest) (e : Expr) : Gets (restAt r e) 1 [] rest (· = e) := by
  have tier (t : Tier) (h : t.rank.Stops rest) : Gets (restAt t.rank e) 1 [] rest (· = e) := by
    rw [restAt_tier]
    refine .succ ?_
    simp only [tierRest]
    exact .skipAs h.joint_eq_none (.pure rfl)
  cases r with
  | or => exact tier .or h
  | and => exact tier .and h
  | equality => exact tier .equality h
  | comparison => exact tier .comparison h
  | term => exact tier .term h
  | factor => exact tier .factor h
  | access =>
    refine .succ ?_
    simp only [restAt, suffixes]
    exact .skipAs h.suffix_eq_none (.pure rfl)
  | assignment | sign | operand => exact .pure rfl

end Rest

/-! ## First tokens -/

/-- The tokens that a literal, a name, a group or an array begins with. -/
def startsOperand : TokenKind → Bool
  | .null | .true | .false | .number | .string | .identifier | .print | .printLine | .input | .leftParen
  | .leftBracket => true
  | _ => false

/-- The tokens that an expression begins with. -/
def startsExpression (k : TokenKind) : Bool := startsOperand k || (sign? k).isSome

theorem sign_of_startsOperand {k : TokenKind} (h : startsOperand k = true) : sign? k = none := by
  cases k <;> first | rfl | cases h

theorem sign_of_signs {k : TokenKind} {op : UnaryOp} (h : Signs k op) : sign? k = some op := by
  cases h <;> rfl

theorem starts_of_denotes {t : Token} {value : Literal} (h : Denotes t value) : startsOperand t.kind = true := by
  cases h with
  | null hk | true hk | false hk => rw [hk]; rfl
  | number hk _ | text hk _ => rcases hk with hk | hk <;> rw [hk] <;> rfl

theorem starts_of_isName {k : TokenKind} (h : IsName k) : startsOperand k = true := by
  cases h <;> rfl

/-- A phrase begins with a token that begins an expression; where no sign may stand, with one that begins an
operand. -/
theorem Spells.starts : ∀ {r : Rank} {ts : List Token} {e : Expr}, Spells r ts e →
    ∃ t us, ts = t :: us ∧ startsExpression t.kind = true ∧ (8 ≤ r.level → startsOperand t.kind = true)
  | _, _, _, .next hn h => by
    obtain ⟨t, us, rfl, hs, ho⟩ := h.starts
    exact ⟨t, us, rfl, hs, fun hl => ho (by rw [hn.level_eq]; omega)⟩
  | _, _, _, .join _ _ hn hl _ => by
    obtain ⟨t, us, rfl, hs, ho⟩ := hl.starts
    exact ⟨t, _, rfl, hs, ho⟩
  | _, _, _, .assign _ h _ _ | _, _, _, .setProperty _ h _ _ | _, _, _, .setElement _ h _ _ => by
    obtain ⟨t, us, rfl, hs, -⟩ := h.starts
    exact ⟨t, _, rfl, hs, fun hl => absurd hl (by decide)⟩
  | _, _, _, .sign _ hs _ => by
    refine ⟨_, _, rfl, ?_, fun hl => absurd hl (by decide)⟩
    rw [startsExpression, sign_of_signs hs]
    exact Bool.or_true _
  | _, _, _, .call _ h _ _ _ _ | _, _, _, .element _ h _ _ _ | _, _, _, .property _ h _ _ => by
    obtain ⟨t, us, rfl, hs, ho⟩ := h.starts
    exact ⟨t, _, rfl, hs, ho⟩
  | _, _, _, .literal _ hd => ⟨_, _, rfl, by rw [startsExpression, starts_of_denotes hd]; rfl, fun _ => starts_of_denotes hd⟩
  | _, _, _, .name _ hk => ⟨_, _, rfl, by rw [startsExpression, starts_of_isName hk]; rfl, fun _ => starts_of_isName hk⟩
  | _, _, _, .group _ hk _ _ | _, _, _, .array _ hk _ _ => ⟨_, _, rfl, by rw [hk]; rfl, fun _ => by rw [hk]; rfl⟩

theorem SpellsSome.starts {ts : List Token} {es : List Expr} (h : SpellsSome ts es) :
    ∃ t us, ts = t :: us ∧ startsExpression t.kind = true := by
  cases h with
  | one he =>
    obtain ⟨t, us, rfl, hs, -⟩ := he.starts
    exact ⟨t, us, rfl, hs⟩
  | more he _ _ =>
    obtain ⟨t, us, rfl, hs, -⟩ := he.starts
    exact ⟨t, _, rfl, hs⟩

/-! ## The rules of the grammar, one by one -/

section Rules

variable {r q : Rank} {ts us vs rest : List Token} {e : Expr}

theorem Rank.cost_le (r : Rank) : r.cost ≤ 15 := by cases r <;> decide

theorem Fits.length_pos (h : Fits r ts e) : 0 < ts.length := by
  obtain ⟨N, d, hN, hb, -⟩ := h [] nofun
  have := r.cost_le
  omega

/-- A phrase that nothing goes on with is read to its end. -/
theorem Fits.gets (h : Fits r ts e) (hs : r.Stops rest) :
    Gets (readAt r) (24 * ts.length + r.cost - 24) ts rest fun e' => e'.bare = e.bare := by
  obtain ⟨N, d, hN, hb, hp⟩ := h rest hs.leaves
  have hg : Gets (fun n => readAt r (n + d)) N ts rest fun e' => e'.bare = e.bare :=
    hp.close fun e' he => ((gets_restAt hs e').mono fun _ h => h ▸ he).le hN
  exact hg.add.le (by omega)

theorem gets_operand {t : Tier} (hq : t.rank.Next q) (h : Fits q ts e) (hs : q.Stops rest) :
    Gets (fun n => operand n t) (24 * ts.length + q.cost - 23) ts rest fun e' => e'.bare = e.bare := by
  have hl := h.length_pos
  have hg : Gets (fun n => operand (n + 1) t) (24 * ts.length + q.cost - 24) ts rest fun e' => e'.bare = e.bare := by
    simp only [operand_succ hq]
    exact h.gets hs
  exact hg.add.le (by omega)

/-- A phrase of a rank is one of the next looser rank. -/
theorem fits_looser (hq : r.Next q) (hr : r ≠ .access) (h : Fits q ts e) : Fits r ts e := by
  have hl := h.length_pos
  -- the six tiers are alike
  have tier (t : Tier) (hq : t.rank.Next q) (hc : q.cost + 2 = t.rank.cost) : Fits t.rank ts e := by
    intro rest hrest
    refine ⟨24 * ts.length + q.cost - 23, 1, by omega, by omega, ?_⟩
    rw [readAt_tier, restAt_tier]
    simp only [Grammar.tier]
    exact .last (gets_operand hq h (hrest.stops hq)) fun e' he => .here e' he fun _ => rfl
  cases hq with
  | assignment =>
    intro rest hrest
    refine ⟨24 * ts.length + 14 - 24, 1, by omega, by show _ + 24 ≤ _ + 15; omega, ?_⟩
    simp only [readAt, expression]
    refine .last (h.gets (hrest.stops .assignment)) fun e' he => .skip (fun t ht hk => ?_) (.pure he)
    exact absurd rfl (hrest t ht .assignment (by rw [hk]; rfl)).2
  | or => exact tier .or .or rfl
  | and => exact tier .and .and rfl
  | equality => exact tier .equality .equality rfl
  | comparison => exact tier .comparison .comparison rfl
  | term => exact tier .term .term rfl
  | factor => exact tier .factor .factor rfl
  | sign =>
    intro rest hrest
    exact ⟨24 * ts.length + 2 - 24, 0, by omega, by show _ + 24 ≤ _ + 2; omega, h.gets (hrest.stops .sign)⟩
  | access => exact absurd rfl hr

/-- An operand is what suffixes follow. -/
theorem fits_access (hs : Spells .operand ts e) (h : Fits .operand ts e) : Fits .access ts e := by
  have hl := h.length_pos
  intro rest hrest
  refine ⟨24 * ts.length + 1 - 24, 1, by omega, by show _ + 24 ≤ _ + 2; omega, ?_⟩
  simp only [readAt, signed]
  refine .skipAs (fun t ht => ?_) ?_
  · obtain ⟨u, us, rfl, -, ho⟩ := hs.starts
    cases ht
    exact sign_of_startsOperand (ho (by decide))
  · exact .last (h.gets (hrest.stops .access)) fun e' he => .here e' he fun _ => rfl

/-- Operands joined by an operator. -/
theorem fits_join {ls rs : List Token} {op : Token} {left right : Expr} {j : Joint} (span : Span)
    (hj : Joins r op.kind j) (hq : r.Next q) (hl : Fits r ls left) (hr : Fits q rs right) :
    Fits r (ls ++ op :: rs) (j.node left right span) := by
  obtain ⟨t, rfl, ht⟩ := joint_of_joins hj
  have hc := q.cost_le
  intro rest hrest
  have hop : t.rank.Leaves (op :: (rs ++ rest)) := by
    intro u hu g hg
    cases hu
    rw [grip_of_joint ht] at hg
    cases hg
    exact ⟨Nat.le_refl _, by cases t <;> nofun⟩
  obtain ⟨N, d, hN, hb, hp⟩ := hl _ hop
  refine ⟨N + 24 * rs.length, d + 1, by omega, by simp only [List.length_append, List.length_cons]; omega, ?_⟩
  rw [readAt_tier, restAt_tier] at hp ⊢
  have hp' : Passes (fun n => tier (n + 1 + d) t) (N + 24 * rs.length) ls (op :: rs ++ rest)
      (fun e' => e'.bare = left.bare) fun e n => tierRest (n + 1) t e := hp.pred.le (by omega)
  have hn (n : Nat) : tier (n + (d + 1)) t = tier (n + 1 + d) t := by rw [Nat.add_comm d 1, ← Nat.add_assoc]
  simp only [hn]
  refine hp'.trans fun left' hleft => ?_
  simp only [tierRest]
  refine .acceptAs ht (.last ((gets_operand hq hr (hrest.stops hq)).le (by omega)) fun right' hright => ?_)
  refine .here (j.join left' right') ?_ fun _ => rfl
  cases j <;> simp only [Joint.join, Joint.node, Expr.bare, hleft, hright]

/-- A target, an equals sign and a value. -/
theorem fits_assignment {target value : Expr} {equals : Token} (ht : Fits .or ts target) (he : equals.kind = .equal)
    (hv : Fits .assignment vs value)
    (ha : ∀ target' value' : Expr, target'.bare = target.bare → value'.bare = value.bare →
      ∃ e', e'.bare = e.bare ∧ assignTo target' equals value' = pure e') :
    Fits .assignment (ts ++ equals :: vs) e := by
  have hl := ht.length_pos
  intro rest hrest
  refine ⟨24 * (ts.length + vs.length), 1, by omega, ?_, ?_⟩
  · simp only [List.length_append, List.length_cons]
    show _ + 24 ≤ _ + 15
    omega
  simp only [readAt, expression]
  have hs : Rank.or.Stops (equals :: vs ++ rest) := .of_grip fun g hg => by
    rw [he] at hg
    cases hg
    decide
  refine .read ((ht.gets hs).le ?_) fun target' htarget => .accept he ?_
  · show _ + 14 - 24 ≤ _
    omega
  refine .last ((hv.gets (hrest.stops_of_assignment _)).le ?_) fun value' hvalue => ?_
  · show _ + 15 - 24 ≤ _
    omega
  obtain ⟨e', hbare, heq⟩ := ha target' value' htarget hvalue
  exact .here e' hbare fun _ => heq

/-- A sign before an operand. -/
theorem fits_sign {t : Token} {op : UnaryOp} (span : Span) (hs : Signs t.kind op) (h : Fits .sign ts e) :
    Fits .sign (t :: ts) (.unary op e span) := by
  have hl := h.length_pos
  intro rest hrest
  refine ⟨24 * ts.length + 2 - 24, 1, by omega, ?_, ?_⟩
  · simp only [List.length_cons]
    show _ + 24 ≤ _ + 2
    omega
  simp only [readAt, signed]
  refine .acceptAs (sign_of_signs hs) (.last (h.gets hrest.stops_of_sign) fun e' he => .pure ?_)
  simp only [Expr.bare, he]

/-! ## Lists -/

/-- The tokens are read as expressions with commas between, in front of a closing token. -/
def FitsSome (us : List Token) (es : List Expr) : Prop :=
  ∀ (close : Token) (rest : List Token) (room : Option Nat), close.kind ≠ .comma → grip? close.kind = none →
    (∀ k, room = some k → es.length ≤ k) →
    Gets (fun n => list n room) (24 * us.length - 8) us (close :: rest) fun es' => Expr.bares es' = Expr.bares es

theorem gets_expression (h : Fits .assignment ts e) (hs : Rank.assignment.Stops rest) :
    Gets expression (24 * ts.length - 9) ts rest fun e' => e'.bare = e.bare :=
  (h.gets hs).le (by show _ + 15 - 24 ≤ _; omega)

theorem fitsSome_one (h : Fits .assignment ts e) : FitsSome ts [e] := by
  have hl := h.length_pos
  intro close rest room hc hg hroom
  have h0 : room ≠ some 0 := fun h0 => by cases hroom 0 h0
  have hgets : Gets (fun n => list (n + 1) room) (24 * ts.length - 9) ts (close :: rest)
      fun es' => Expr.bares es' = Expr.bares [e] := by
    simp only [list.eq_3 _ _ h0]
    refine .last (gets_expression h (.of_free hg)) fun e' he => .skip (.cons hc) (.pure ?_)
    simp only [Expr.bares, he]
  exact hgets.add.le (by omega)

theorem fitsSome_more {comma : Token} {es : List Expr} (h : Fits .assignment ts e) (hk : comma.kind = .comma)
    (hes : FitsSome us es) : FitsSome (ts ++ comma :: us) (e :: es) := by
  have hl := h.length_pos
  intro close rest room hc hg hroom
  have h0 : room ≠ some 0 := fun h0 => by cases hroom 0 h0
  have hgets : Gets (fun n => list (n + 1) room) (24 * (ts.length + us.length)) (ts ++ comma :: us) (close :: rest)
      fun es' => Expr.bares es' = Expr.bares (e :: es) := by
    simp only [list.eq_3 _ _ h0]
    refine .read ((gets_expression h (.of_free (by rw [hk]; rfl))).le (by omega)) fun e' he => .accept hk ?_
    refine .last ((hes close rest _ hc hg fun k hk => ?_).le (by omega)) fun es' hes' => .pure ?_
    · cases room with
      | none => cases hk
      | some k' =>
        cases hk
        have := hroom k' rfl
        simp only [List.length_cons] at this
        show es.length ≤ k' - 1
        omega
    · simp only [Expr.bares, he, hes']
  exact hgets.add.le (by simp only [List.length_append, List.length_cons]; omega)

/-- The tokens are read as a list that may be empty, in front of a closing token. -/
def FitsList (us : List Token) (es : List Expr) : Prop :=
  ∀ (close : Token) (rest : List Token) (room : Option Nat), close.kind = .rightParen ∨ close.kind = .rightBracket →
    (∀ k, room = some k → es.length ≤ k) →
    Gets (fun n => listUntil n close.kind room) (24 * us.length + 1) us (close :: rest)
      fun es' => Expr.bares es' = Expr.bares es

theorem fitsList_none : FitsList [] [] := by
  intro close rest room hc _
  refine .succ ?_
  simp only [listUntil]
  exact .sees rfl rfl (.pure rfl)

theorem fitsList_some {es : List Expr} (hs : SpellsSome us es) (h : FitsSome us es) : FitsList us es := by
  intro close rest room hc hroom
  refine .succ ?_
  simp only [listUntil]
  refine .unseen ?_ ((h close rest room ?_ ?_ hroom).le (by omega))
  · obtain ⟨t, vs, rfl, ht⟩ := hs.starts
    exact .of_test ht (by rcases hc with hc | hc <;> rw [hc] <;> rfl)
  · rcases hc with hc | hc <;> rw [hc] <;> decide
  · rcases hc with hc | hc <;> rw [hc] <;> rfl

/-! ## Suffixes -/

section Suffixes

variable {opened closed : Token} {callee object index : Expr}

/-- A suffix takes the reader from one tree to the next. -/
theorem fits_suffix {e' : Expr} (h : Fits .access ts e) (hk : grip? opened.kind = some .access)
    (hs : ∀ e₁ rest, e₁.bare = e.bare → Passes (fun n => suffixes (n + 1) e₁) (24 * us.length + 1) (opened :: us) rest
      (fun e₂ => e₂.bare = e'.bare) fun e₂ n => suffixes n e₂) :
    Fits .access (ts ++ opened :: us) e' := by
  intro rest hrest
  have hop : Rank.access.Leaves (opened :: us ++ rest) := by
    intro u hu g hg
    cases hu
    rw [hk] at hg
    cases hg
    exact ⟨Nat.le_refl _, by decide⟩
  obtain ⟨N, d, hN, hb, hp⟩ := h _ hop
  refine ⟨N + 24 * us.length + 1, d + 1, by omega, by simp only [List.length_append, List.length_cons]; omega, ?_⟩
  have hp' : Passes (fun n => signed (n + 1 + d)) (N + 24 * us.length + 1) ts (opened :: us ++ rest)
      (fun e₁ => e₁.bare = e.bare) fun e n => suffixes (n + 1) e := hp.pred.le (by omega)
  have hn (n : Nat) : signed (n + (d + 1)) = signed (n + 1 + d) := by rw [Nat.add_comm d 1, ← Nat.add_assoc]
  simp only [readAt, hn]
  exact hp'.trans fun e₁ he₁ => (hs e₁ rest he₁).le (by omega)

theorem fits_call {args : List Expr} (span : Span) (h : Fits .access ts callee) (ho : opened.kind = .leftParen)
    (ha : FitsList us args) (hl : args.length ≤ 255) (hc : closed.kind = .rightParen) :
    Fits .access (ts ++ opened :: (us ++ [closed])) (.call callee args span) := by
  refine fits_suffix h (by rw [ho]; rfl) fun callee' rest hcallee => ?_
  have hg := ha closed rest (some maxArguments) (Or.inl hc) fun k hk => by cases hk; exact hl
  rw [hc] at hg
  have hs : suffix? opened.kind = some .arguments := by rw [ho]; rfl
  simp only [suffixes]
  refine .acceptAs hs ?_
  refine .read (hg.le (by simp only [List.length_append]; omega)) fun args' hargs => .expect hc ?_
  refine .here (.call callee' args' (callee'.span.through closed.span)) ?_ fun _ => rfl
  simp only [Expr.bare, hcallee, hargs]

theorem fits_element (span : Span) (h : Fits .access ts object) (ho : opened.kind = .leftBracket)
    (hi : Fits .assignment us index) (hc : closed.kind = .rightBracket) :
    Fits .access (ts ++ opened :: (us ++ [closed])) (.element object index span) := by
  refine fits_suffix h (by rw [ho]; rfl) fun object' rest hobject => ?_
  have hs : suffix? opened.kind = some .index := by rw [ho]; rfl
  simp only [suffixes]
  refine .acceptAs hs ?_
  refine .read ((gets_expression hi (.of_free (by rw [hc]; rfl))).le (by simp; omega)) fun index' hindex => ?_
  refine .expect hc (.here (.element object' index' (object'.span.through closed.span)) ?_ fun _ => rfl)
  simp only [Expr.bare, hobject, hindex]

theorem fits_property {dot name : Token} (span : Span) (h : Fits .access ts object) (hd : dot.kind = .dot)
    (hn : name.kind = .identifier) : Fits .access (ts ++ [dot, name]) (.property object name.lexeme span) := by
  refine fits_suffix h (by rw [hd]; rfl) fun object' rest hobject => ?_
  have hs : suffix? dot.kind = some .property := by rw [hd]; rfl
  simp only [suffixes]
  refine .acceptAs hs (.expect hn (.here (.property object' name.lexeme (object'.span.through name.span)) ?_ fun _ => rfl))
  simp only [Expr.bare, hobject]

end Suffixes

/-! ## Operands -/

theorem takeOpening_eq {t : Token} {o : Opening} (h : opening t = o) (latest : Option Token) (ts : List Token)
    (ho : o ≠ .none := by simp) : takeOpening ⟨latest, t :: ts⟩ = .done (o, t) ⟨some t, ts⟩ := by
  unfold takeOpening
  dsimp only
  rw [h]
  cases o <;> first | rfl | exact absurd rfl ho

/-- A token that is a whole operand. -/
theorem fits_whole {t : Token} {e' : Expr} (h : opening t = .whole e') (he : e'.bare = e.bare) :
    Fits .operand [t] e := by
  intro rest _
  refine ⟨1, 0, by omega, Nat.le_refl _, .succ ?_⟩
  simp only [readAt, primary]
  exact .token (takeOpening_eq h · _) (.pure he)

theorem fits_literal {t : Token} {value : Literal} (span : Span) (h : Denotes t value) :
    Fits .operand [t] (.literal value span) := by
  have ho : opening t = .whole (.literal value t.span) := by
    cases h with
    | null hk | true hk | false hk => rw [opening, hk]
    | number hk hp | text hk hp => rcases hk with hk | hk <;> rw [opening, hk, hp]
  exact fits_whole ho rfl

theorem fits_name {t : Token} (span : Span) (h : IsName t.kind) : Fits .operand [t] (.name t.lexeme span) := by
  have ho : opening t = .whole (.name t.lexeme t.span) := by
    rw [opening]
    cases hk : t.kind <;> rw [hk] at h <;> first | rfl | cases h
  exact fits_whole ho rfl

theorem fits_group {opened closed : Token} (span : Span) (ho : opened.kind = .leftParen) (h : Fits .assignment ts e)
    (hc : closed.kind = .rightParen) : Fits .operand (opened :: (ts ++ [closed])) (.group e span) := by
  have hl := h.length_pos
  intro rest _
  refine ⟨24 * ts.length - 9 + 1, 0, by omega, ?_, .succ ?_⟩
  · simp only [List.length_append, List.length_cons, List.length_nil]
    omega
  have hop : opening opened = .group := by rw [opening, ho]
  simp only [readAt, primary]
  refine .token (takeOpening_eq hop · _) ?_
  refine .read (gets_expression h (.of_free (by rw [hc]; rfl))) fun e' he => ?_
  refine .expect hc (.pure ?_)
  simp only [Expr.bare, he]

theorem fits_array {opened closed : Token} {es : List Expr} (span : Span) (ho : opened.kind = .leftBracket)
    (h : FitsList ts es) (hc : closed.kind = .rightBracket) :
    Fits .operand (opened :: (ts ++ [closed])) (.array es span) := by
  intro rest _
  refine ⟨24 * ts.length + 1 + 1, 0, by omega, ?_, .succ ?_⟩
  · simp only [List.length_append, List.length_cons, List.length_nil]
    omega
  have hop : opening opened = .array := by rw [opening, ho]
  have hg := h closed rest none (Or.inr hc) (by simp)
  rw [hc] at hg
  simp only [readAt, primary]
  refine .token (takeOpening_eq hop · _) ?_
  refine .read hg fun es' hes => ?_
  refine .expect hc (.pure ?_)
  simp only [Expr.bare, hes]

/-! ## Assignments -/

/-- What is read without operators is read as the target of an assignment. -/
theorem Fits.or_of_access (h : Fits .access ts e) : Fits .or ts e :=
  fits_looser .or nofun <| fits_looser .and nofun <| fits_looser .equality nofun <| fits_looser .comparison nofun <|
    fits_looser .term nofun <| fits_looser .factor nofun <| fits_looser .sign nofun h

variable {equals : Token} {value : Expr} {x : String} {s : Span}

theorem fits_assign (span : Span) (ht : Fits .access ts (.name x s)) (he : equals.kind = .equal)
    (hv : Fits .assignment vs value) : Fits .assignment (ts ++ equals :: vs) (.assign x value span) := by
  refine fits_assignment ht.or_of_access he hv fun target' value' htarget hvalue => ?_
  obtain ⟨s', rfl⟩ := Expr.eq_name_of_bare htarget
  exact ⟨_, by simp only [Expr.bare, hvalue], rfl⟩

theorem fits_setProperty {object : Expr} (span : Span) (ht : Fits .access ts (.property object x s))
    (he : equals.kind = .equal) (hv : Fits .assignment vs value) :
    Fits .assignment (ts ++ equals :: vs) (.setProperty object x value span) := by
  refine fits_assignment ht.or_of_access he hv fun target' value' htarget hvalue => ?_
  obtain ⟨object', s', hobject, rfl⟩ := Expr.eq_property_of_bare htarget
  exact ⟨_, by simp only [Expr.bare, hobject, hvalue], rfl⟩

theorem fits_setElement {object index : Expr} (span : Span) (ht : Fits .access ts (.element object index s))
    (he : equals.kind = .equal) (hv : Fits .assignment vs value) :
    Fits .assignment (ts ++ equals :: vs) (.setElement object index value span) := by
  refine fits_assignment ht.or_of_access he hv fun target' value' htarget hvalue => ?_
  obtain ⟨object', index', s', hobject, hindex, rfl⟩ := Expr.eq_element_of_bare htarget
  exact ⟨_, by simp only [Expr.bare, hobject, hindex, hvalue], rfl⟩

end Rules

mutual

/-- **A phrase is read as the tree that it spells.** -/
theorem Spells.fits : ∀ {r : Rank} {ts : List Token} {e : Expr}, Spells r ts e → Fits r ts e
  | r, _, _, .next hn h => by
    have ih := h.fits
    by_cases hr : r = .access
    · subst hr
      cases hn
      exact fits_access h ih
    · exact fits_looser hn hr ih
  | _, _, _, .join span hj hn hl hr => fits_join span hj hn hl.fits hr.fits
  | _, _, _, .assign span ht he hv => fits_assign span ht.fits he hv.fits
  | _, _, _, .setProperty span ht he hv => fits_setProperty span ht.fits he hv.fits
  | _, _, _, .setElement span ht he hv => fits_setElement span ht.fits he hv.fits
  | _, _, _, .sign span hs h => fits_sign span hs h.fits
  | _, _, _, .call span h ho ha hl hc => fits_call span h.fits ho ha.fits hl hc
  | _, _, _, .element span h ho hi hc => fits_element span h.fits ho hi.fits hc
  | _, _, _, .property span h hd hn => fits_property span h.fits hd hn
  | _, _, _, .literal span hd => fits_literal span hd
  | _, _, _, .name span hk => fits_name span hk
  | _, _, _, .group span ho h hc => fits_group span ho h.fits hc
  | _, _, _, .array span ho h hc => fits_array span ho h.fits hc

theorem SpellsList.fits : ∀ {ts : List Token} {es : List Expr}, SpellsList ts es → FitsList ts es
  | _, _, .none => fitsList_none
  | _, _, .some h => fitsList_some h h.fits

theorem SpellsSome.fits : ∀ {ts : List Token} {es : List Expr}, SpellsSome ts es → FitsSome ts es
  | _, _, .one h => fitsSome_one h.fits
  | _, _, .more h hk hes => fitsSome_more h.fits hk hes.fits

end

/-- An expression is read in front of any token that does not go on with it. -/
theorem Spells.gets {ts rest : List Token} {e : Expr} {t : Token} (h : Spells .assignment ts e)
    (ht : grip? t.kind = none) :
    Gets expression (24 * ts.length) ts (t :: rest) fun e' => e'.bare = e.bare :=
  (gets_expression h.fits (.of_free ht)).le (by omega)

end StepScript.Grammar
