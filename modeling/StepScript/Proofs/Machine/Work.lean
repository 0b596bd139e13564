import StepScript.Machine.Step

/-!
# What pending work comes to

Every piece of pending work takes one thing, a value, the end of a statement or a line, and gives one in turn
(`Pending.takes`, `Pending.gives`). When it ends, the machine is back at the place, that is the frame and the calls in
progress, that it was begun from (`Pending.exit`).

`Working base home p m` says that the machine is at work on top of `base`: what lies above `base` fits together, comes
to a `p`, and leads back to `home`, whatever happens inside it.

* One step goes on with the work (`working_step`): whether a statement, an expression or a call is looked at, whether a
  value, the end of a statement, a return or a failure is handed outward.
* An answer to a read and a refusal do as well (`working_answer`, `working_refuse`).
-/

namespace StepScript

/-- What work comes to. -/
inductive Product where
  | value
  | statement
  | line
deriving DecidableEq

/-- A place of a run: the current frame and the calls in progress. -/
abbrev Place := FrameId × Calls

namespace Pending

/-- What a piece of pending work waits for. -/
def takes : Pending → Product
  | reply _ _ => .line
  | block _ _ | again _ _ | call _ _ | program _ _ => .statement
  | _ => .value

/-- What a piece of pending work comes to. -/
def gives : Pending → Product
  | discard | write _ | prompt _ | bind _ | block _ _ | choose _ _ | test _ _ | again _ _ | returning => .statement
  | reply keep _ => if keep then .value else .statement
  | _ => .value

/-- The place after a piece of pending work, from the place inside it. -/
def exit : Pending → Place → Place
  | block outer _, (_, calls) => (outer, calls)
  | call outer _, (_, calls) => (outer, calls.pop)
  | _, place => place

end Pending

/-- What a focus comes to, unless it is a failure. -/
def Focus.product? : Focus → Option Product
  | start _ | exec _ | done | leave _ => some .statement
  | eval _ | apply _ _ _ | give _ => some .value
  | await _ => some .line
  | fail _ => none

/-- Whether work ends with this focus. -/
def Focus.isOutcome : Focus → Bool
  | give _ | done | leave _ | fail _ => true
  | _ => false

/-- A chain of work that comes to a `p`, from what the innermost piece is handed; a failure goes through all. -/
def Yields : Option Product → List Pending → Product → Prop
  | none, [], _ => True
  | some q, [], p => q = p
  | none, w :: rest, p => Yields (some w.gives) rest p
  | some q, w :: rest, p => w.takes = q ∧ Yields (some w.gives) rest p

/-- The place outside a chain of work, from the place inside it. -/
def exitAll : List Pending → Place → Place
  | [], place => place
  | w :: rest, place => exitAll rest (w.exit place)

theorem exitAll_append (ws vs : List Pending) (place : Place) :
    exitAll (ws ++ vs) place = exitAll vs (exitAll ws place) := by
  induction ws generalizing place with
  | nil => rfl
  | cons w ws ih => exact ih (w.exit place)

/-- A failure fits wherever a product does. -/
theorem Yields.of_none {p : Product} {ws : List Pending} {q : Product} (h : Yields (some q) ws p) :
    Yields none ws p := by
  cases ws with
  | nil => trivial
  | cons w rest => exact h.2

/-- Chains of work compose. -/
theorem Yields.append {p q : Product} {ws vs : List Pending} {o : Option Product} (h : Yields o ws q)
    (h' : Yields (some q) vs p) : Yields o (ws ++ vs) p := by
  induction ws generalizing o with
  | nil =>
    cases o with
    | none => exact h'.of_none
    | some r => cases h; exact h'
  | cons w ws ih =>
    cases o with
    | none => exact ih h
    | some r => exact ⟨h.1, ih h.2⟩

namespace Machine

/-- The current frame and the calls in progress. -/
def place (m : Machine) : Place := (m.here, m.calls)

/-- The machine is back at the work `base`, with an outcome for it. -/
def Back (base : List Pending) (m : Machine) : Prop := m.pending = base ∧ m.focus.isOutcome = true

/-- The machine is at work on top of `base`, on something that comes to a `p` and leads back to `home`. -/
def Working (base : List Pending) (home : Place) (p : Product) (m : Machine) : Prop :=
  ∃ inner, m.pending = inner ++ base ∧ Yields m.focus.product? inner p ∧ exitAll inner m.place = home

/-- **Back at its base, the machine is at home.** -/
theorem Working.home {base : List Pending} {home : Place} {p : Product} {m : Machine} (h : Working base home p m)
    (hb : m.Back base) : m.place = home := by
  obtain ⟨inner, hp, -, hx⟩ := h
  have hn : inner = [] := by
    have := hb.1.symm.trans hp
    simpa using this
  rw [hn] at hx
  exact hx

/-- Work inside work. -/
theorem Working.trans {base base' : List Pending} {home home' : Place} {p q : Product} {m : Machine}
    (h : Working base' home' q m) {outer : List Pending} (hb : base' = outer ++ base) (hy : Yields (some q) outer p)
    (hx : exitAll outer home' = home) : Working base home p m := by
  obtain ⟨inner, hp, hi, he⟩ := h
  refine ⟨inner ++ outer, by rw [hp, hb, List.append_assoc], hi.append hy, ?_⟩
  rw [exitAll_append, he, hx]

/-- Work that its base cannot see yet: the focus alone. -/
theorem working_self {m : Machine} {p : Product} (h : m.focus.product? = none ∨ m.focus.product? = some p) :
    Working m.pending m.place p m := by
  refine ⟨[], rfl, ?_, rfl⟩
  rcases h with h | h <;> rw [h]
  · trivial
  · rfl

/-! ## The small operations of a step -/

section Operations

variable {m : Machine} {p : Product}

/-- Another focus that comes to the same. -/
theorem working_turn {f : Focus} (h : f.product? = none ∨ f.product? = some p) :
    Working m.pending m.place p (m.turn f) := working_self (m := m.turn f) h

/-- One more piece of work that stays at its place. -/
theorem working_push {f : Focus} {w : Pending} (hf : f.product? = some w.takes) (hw : w.gives = p)
    (hx : ∀ place, w.exit place = place) : Working m.pending m.place p (m.push f w) := by
  refine ⟨[w], rfl, ?_, hx _⟩
  show Yields f.product? [w] p
  rw [hf]
  exact ⟨rfl, hw⟩

theorem working_raise {span : Span} {f : RuntimeFault} : Working m.pending m.place p (m.raise span f) :=
  working_turn (Or.inl rfl)

theorem working_settle {span : Span} {r : Except RuntimeFault Value} :
    Working m.pending m.place .value (m.settle span r) := by
  cases r with
  | ok v => exact working_turn (Or.inr rfl)
  | error f => exact working_raise

theorem working_request {keep : Bool} {span : Span} {prompt : String} (hp : (Pending.reply keep span).gives = p) :
    Working m.pending m.place p (m.request keep span prompt) := by
  unfold request
  split
  · exact working_turn (Or.inl rfl)
  · exact working_push rfl hp fun _ => rfl

/-- Work does not depend on the data of the program. -/
theorem Working.store {base : List Pending} {home : Place} (h : Working base home p m) (store : Store) :
    Working base home p { m with store := store } := h

end Operations

/-! ## One step -/

section Hand

variable {m : Machine} {w : Pending} {rest : List Pending}

theorem step_give {v : Value} (hm : m.focus = .give v) (hp : m.pending = w :: rest) :
    m.step = ({ m with pending := rest } : Machine).takeValue v w := by simp only [step, hm, hp]

theorem step_done (hm : m.focus = .done) (hp : m.pending = w :: rest) :
    m.step = (({ m with pending := rest } : Machine).afterStatement w, none) := by simp only [step, hm, hp]

theorem step_leave {v : Value} (hm : m.focus = .leave v) (hp : m.pending = w :: rest) :
    m.step = (({ m with pending := rest } : Machine).leaveThrough v w, none) := by simp only [step, hm, hp]

theorem step_fail {d : Diagnostic} (hm : m.focus = .fail d) (hp : m.pending = w :: rest) :
    m.step = (({ m with pending := rest } : Machine).failThrough w, none) := by simp only [step, hm, hp]

/-- A failure goes through the pending work without a word, and changes nothing but its place. -/
theorem step_of_fail {d : Diagnostic} (hm : m.focus = .fail d) (hp : m.pending = w :: rest) :
    ∃ here calls, m.step = ({ m with pending := rest, here := here, calls := calls }, none) := by
  rw [step_fail hm hp]
  cases w <;> exact ⟨_, _, rfl⟩

end Hand

section Step

variable {m : Machine}

theorem working_startStatement (s : Stmt) : Working m.pending m.place .statement (m.startStatement s).1 := by
  unfold startStatement
  split
  · exact working_turn (Or.inl rfl)
  · split <;> exact working_turn (Or.inr rfl)

/-- A statement that is carried out comes to its end. -/
theorem working_execStatement (s : Stmt) : Working m.pending m.place .statement (m.execStatement s) := by
  cases s with
  | expr e _ | print e newline _ | assign x e _ | branch e yes no _ | loop e body _ =>
    exact working_push rfl rfl fun _ => rfl
  | input keyword prompt span =>
    cases prompt with
    | none => exact working_request rfl
    | some e => exact working_push rfl rfl fun _ => rfl
  | block body _ => exact ⟨[.block m.here body], rfl, ⟨rfl, rfl⟩, rfl⟩
  | function x params body _ => exact (working_turn (f := .done) (Or.inr rfl)).store _
  | leave value _ =>
    cases value with
    | none => exact working_turn (Or.inr rfl)
    | some e => exact working_push rfl rfl fun _ => rfl

/-- An expression comes to a value. -/
theorem working_evalExpression (e : Expr) : Working m.pending m.place .value (m.evalExpression e) := by
  cases e with
  | literal value _ => exact working_turn (Or.inr rfl)
  | name x span =>
    simp only [evalExpression]
    split
    · exact working_turn (Or.inr rfl)
    · exact working_raise
  | array items _ =>
    cases items with
    | nil => exact (working_turn (f := .give (.array _)) (Or.inr rfl)).store _
    | cons e rest => exact working_push rfl rfl fun _ => rfl
  | group inner _ => exact working_turn (Or.inr rfl)
  | assign | binary | logical | unary | call | property | element | setProperty | setElement =>
    exact working_push rfl rfl fun _ => rfl

theorem working_takeAnswer (span : Span) (a : Answer) :
    Working m.pending m.place .value (m.takeAnswer span a).1 := by
  cases a with
  | ask prompt => exact working_request rfl
  | fault f => exact working_raise
  | value | write | writeLine | clear => exact working_turn (Or.inr rfl)

theorem working_runBuiltin (b : Builtin) (args : List Value) (span : Span) :
    Working m.pending m.place .value (m.runBuiltin b args span).1 := by
  show Working m.pending m.place .value (takeAnswer { m with store := (b.run args m.store).2 } span _).1
  exact working_takeAnswer (m := { m with store := (b.run args m.store).2 }) span _

/-- A call comes to a value. -/
theorem working_applyValue (callee : Value) (args : List Value) (span : Span) :
    Working m.pending m.place .value (m.applyValue callee args span).1 := by
  unfold applyValue
  split
  · split
    · split
      · exact working_runBuiltin _ args span
      · exact working_raise
    · exact working_runBuiltin _ args span
  · rename_i f
    split
    · exact working_raise
    · split
      · exact working_raise
      · refine ⟨[.call m.here f.body], rfl, ⟨rfl, rfl⟩, ?_⟩
        show (m.here, (m.calls.push _).pop) = m.place
        rw [Calls.pop_push]
        rfl
  · exact working_raise

/-- Work that is handed a value goes on from its own place. -/
theorem working_takeValue (v : Value) {w : Pending} (hw : w.takes = .value) :
    Working m.pending (w.exit m.place) w.gives (m.takeValue v w).1 := by
  cases w with
  | reply | block | again | call | program => cases hw
  | discard =>
    simp only [takeValue]
    split <;> exact working_turn (f := .done) (Or.inr rfl)
  | write newline => cases newline <;> exact working_turn (Or.inr rfl)
  | prompt span => exact working_request rfl
  | bind x => exact (working_turn (f := .done) (Or.inr rfl)).store _
  | choose yes no =>
    simp only [takeValue]
    split
    · exact working_turn (Or.inr rfl)
    · split <;> exact working_turn (Or.inr rfl)
  | test condition body =>
    simp only [takeValue]
    split
    · exact working_push rfl rfl fun _ => rfl
    · exact working_turn (Or.inr rfl)
  | returning => exact working_turn (Or.inr rfl)
  | assign x => exact (working_turn (f := .give v) (Or.inr rfl)).store _
  | combine | unary | property | index => exact working_settle
  | logical op right =>
    simp only [takeValue]
    split <;> exact working_turn (Or.inr rfl)
  | callee args span =>
    cases args with
    | nil => exact working_turn (Or.inr rfl)
    | cons e rest => exact working_push rfl rfl fun _ => rfl
  | argument callee before rest span =>
    cases rest with
    | nil => exact working_turn (Or.inr rfl)
    | cons e rest => exact working_push rfl rfl fun _ => rfl
  | item before rest =>
    cases rest with
    | nil => exact (working_turn (f := .give (.array _)) (Or.inr rfl)).store _
    | cons e rest => exact working_push rfl rfl fun _ => rfl
  | right | object | setIndex => exact working_push rfl rfl fun _ => rfl
  | setProperty x span => cases v <;> exact working_raise
  | setObject index value span =>
    simp only [takeValue]
    split
    · exact working_raise
    · exact working_push rfl rfl fun _ => rfl
  | setValue object index span =>
    simp only [takeValue]
    split
    · exact (working_turn (f := .give v) (Or.inr rfl)).store _
    · exact working_raise

/-- The end of a statement is the end of the work around it, or the start of its next part. -/
theorem working_afterStatement (hm : m.focus = .done) {w : Pending} (hw : w.takes = .statement) :
    Working m.pending (w.exit m.place) w.gives (m.afterStatement w) := by
  cases w with
  | block outer rest =>
    cases rest with
    | nil => exact ⟨[], rfl, by simp only [afterStatement, hm]; rfl, rfl⟩
    | cons s rest => exact ⟨[.block outer rest], rfl, ⟨rfl, rfl⟩, rfl⟩
  | call outer rest =>
    cases rest with
    | nil => exact ⟨[], rfl, rfl, rfl⟩
    | cons s rest => exact ⟨[.call outer rest], rfl, ⟨rfl, rfl⟩, rfl⟩
  | again condition body => exact working_push rfl rfl fun _ => rfl
  | program index rest =>
    cases rest with
    | nil => exact ⟨[], rfl, rfl, rfl⟩
    | cons s rest => exact ⟨[.program (index + 1) rest], rfl, ⟨rfl, rfl⟩, rfl⟩
  | _ => cases hw

/-- A return goes through the work around it up to the call. -/
theorem working_leaveThrough {v : Value} (hm : m.focus = .leave v) {w : Pending} (hw : w.takes = .statement) :
    Working m.pending (w.exit m.place) w.gives (m.leaveThrough v w) := by
  cases w with
  | block outer rest => exact ⟨[], rfl, by simp only [leaveThrough, hm]; rfl, rfl⟩
  | call outer rest => exact ⟨[], rfl, rfl, rfl⟩
  | again condition body => exact ⟨[], rfl, by simp only [leaveThrough, hm]; rfl, rfl⟩
  | program index rest => exact ⟨[], rfl, rfl, rfl⟩
  | _ => cases hw

/-- A failure goes through any work. -/
theorem working_failThrough {d : Diagnostic} (hm : m.focus = .fail d) (w : Pending) :
    Working m.pending (w.exit m.place) w.gives (m.failThrough w) := by
  cases w <;> exact ⟨[], rfl, by simp only [failThrough, hm]; trivial, rfl⟩

end Step

section Run

variable {base : List Pending} {home : Place} {p : Product} {m : Machine}

/-- Looking at a statement, an expression or a call is the start of work on top of all that is pending. -/
theorem working_look (hf : m.focus.isOutcome = false) {q : Product} (hq : m.focus.product? = some q) :
    Working m.pending m.place q m.step.1 := by
  unfold step
  cases hm : m.focus with
  | start s => rw [hm] at hq; cases hq; exact working_startStatement s
  | exec s => rw [hm] at hq; cases hq; exact working_execStatement s
  | eval e => rw [hm] at hq; cases hq; exact working_evalExpression e
  | apply callee args span => rw [hm] at hq; cases hq; exact working_applyValue callee args span
  | await prompt => exact working_self (Or.inr hq)
  | give | done | leave | fail => rw [hm] at hf; cases hf

/-- An outcome is handed to the innermost piece of pending work, which goes on from its own place. -/
theorem working_hand (hf : m.focus.isOutcome = true) {w : Pending} {rest : List Pending} (hp : m.pending = w :: rest)
    (hw : ∀ q, m.focus.product? = some q → w.takes = q) : Working rest (w.exit m.place) w.gives m.step.1 := by
  cases hm : m.focus with
  | start | exec | eval | apply | await => rw [hm] at hf; cases hf
  | give v =>
    rw [step_give hm hp]
    exact working_takeValue (m := { m with pending := rest }) v (hw .value (by rw [hm]; rfl))
  | done =>
    rw [step_done hm hp]
    exact working_afterStatement (m := { m with pending := rest }) hm (hw .statement (by rw [hm]; rfl))
  | leave v =>
    rw [step_leave hm hp]
    exact working_leaveThrough (m := { m with pending := rest }) hm (hw .statement (by rw [hm]; rfl))
  | fail d =>
    rw [step_fail hm hp]
    exact working_failThrough (m := { m with pending := rest }) hm w

/-- **One step goes on with the work**, as long as the machine is not back at its base. -/
theorem working_step (h : Working base home p m) (hb : ¬m.Back base) : Working base home p m.step.1 := by
  obtain ⟨inner, hp, hy, hx⟩ := h
  cases hf : m.focus.isOutcome with
  | false =>
    cases hq : m.focus.product? with
    | none =>
      cases hm : m.focus <;> rw [hm] at hf hq <;> cases hq
      all_goals cases hf
    | some q =>
      rw [hq] at hy
      exact (working_look hf hq).trans hp hy hx
  | true =>
    cases inner with
    | nil => exact absurd ⟨hp, hf⟩ hb
    | cons w inner =>
      have hw : ∀ q, m.focus.product? = some q → w.takes = q := fun q hq => by rw [hq] at hy; exact hy.1
      have hy' : Yields (some w.gives) inner p := by
        cases hq : m.focus.product? with
        | none => rw [hq] at hy; exact hy
        | some q => rw [hq] at hy; exact hy.2
      exact (working_hand hf hp hw).trans rfl hy' hx

/-- Whatever a machine at work becomes by a change of its focus into a failure, it is at the same work. -/
theorem working_refuse (h : Working base home p m) (d : Diagnostic) : Working base home p (m.refuse d) := by
  obtain ⟨inner, hp, hy, hx⟩ := h
  refine ⟨inner, hp, ?_, hx⟩
  show Yields none inner p
  cases hq : m.focus.product? with
  | none => rw [hq] at hy; exact hy
  | some q => rw [hq] at hy; exact hy.of_none

/-- An answer to a read goes on with the work. -/
theorem working_answer (h : Working base home p m) (hp : p ≠ .line) (reply : Reply) :
    Working base home p (m.answer reply) := by
  obtain ⟨inner, hi, hy, hx⟩ := h
  cases hm : m.focus with
  | await prompt =>
    rw [hm] at hy
    cases inner with
    | nil => exact absurd hy.symm hp
    | cons w inner =>
      obtain ⟨keep, span, rfl⟩ : ∃ keep span, w = .reply keep span := by
        cases w with
        | reply keep span => exact ⟨keep, span, rfl⟩
        | _ => cases hy.1
      have hw : ∀ {f : Focus}, f.product? = none ∨ f.product? = some (Pending.reply keep span).gives →
          Working base home p (({ m with pending := inner ++ base } : Machine).turn f) := fun hf =>
        (working_turn (m := { m with pending := inner ++ base }) hf).trans rfl hy.2 hx
      simp only [answer, hm, hi, List.cons_append]
      cases reply with
      | line text => cases keep <;> exact hw (Or.inr rfl)
      | cancelled => dsimp only; split <;> exact hw (Or.inl rfl)
  | _ =>
    simp only [answer, hm]
    exact ⟨inner, hi, hy, hx⟩

/-- A machine at work that waits for a line has the read on top of its work. -/
theorem Working.reply (h : Working base home p m) (hp : p ≠ .line) {prompt : String} (hm : m.focus = .await prompt) :
    ∃ keep span rest, m.pending = .reply keep span :: rest := by
  obtain ⟨inner, hi, hy, -⟩ := h
  rw [hm] at hy
  cases inner with
  | nil => exact absurd hy.symm hp
  | cons w inner =>
    cases w with
    | reply keep span => exact ⟨keep, span, _, hi⟩
    | _ => cases hy.1

end Run

end Machine

end StepScript
