import StepScript.Proofs.Machine.CallStack

/-!
# The value of a program

A program comes to the value of the last expression statement that it carried out at its top level, that is outside all
blocks and calls. The machine cannot see that: it looks whether it is in the global frame and inside no call. The two
are the same, because a frame that is entered is a new one, so inside a block or a call the machine never is in the
global frame (`Apart`).

* `noted` is the value that is kept after the next step; a move changes it, and the number of the statement, nowhere but
  where the program goes on (`Move.keeps`).
* `Midway p past m` says how a program stands that has come so far: one move keeps it or ends the program
  (`Midway.move`).
-/

namespace StepScript

namespace Machine

/-! ## What is said of a run -/

/-- The value that an expression statement has come to, unless the statement is inside a block or a call. -/
def topValue? (m : Machine) : Option Value :=
  match m.focus, m.pending with
  | .give v, .discard :: rest => if rest.any Pending.isScope then none else some v
  | _, _ => none

/-- The value of the last expression statement at the top level, or null if there is none. -/
def lastValue (past : List Machine) : Value := (past.filterMap topValue?).getLast?.getD .null

/-- What waits for the end of statement number `i` of a program. -/
def after (p : Program) (i : Nat) : List Pending := [.program (i + 1) (p.drop (i + 1))]

/-- Statement number `i` of a program has failed: the run came to it, it has been at work on it ever since, and the
failure is what that came to. -/
def FailedAt (past : List Machine) (p : Program) (i : Nat) (d : Diagnostic) : Prop :=
  ∃ s before start during last, p[i]? = some s ∧ past = before ++ start :: during ∧
    start.focus = .start s ∧ start.pending = after p i ∧ (∀ m ∈ during, ∃ inner, m.pending = inner ++ after p i) ∧
    during.getLast? = some last ∧ last.focus = .fail d ∧ last.pending = after p i

/-- How a program ends: with the last value and behind its last statement, or with the failure of a statement and at
that statement. -/
def EndsAs (past : List Machine) (p : Program) (cursor : Nat) : Except Diagnostic Value → Prop
  | .ok v => v = lastValue past ∧ cursor = p.length
  | .error d => FailedAt past p cursor d

/-! ## What is kept by a step -/

/-- The value that is kept after the next step, if that is not up to a program. -/
def noted (m : Machine) : Value :=
  match m.focus, m.pending with
  | .give v, .discard :: _ => if m.depth == 0 && m.here == Store.globals then v else m.latest
  | _, _ => m.latest

/-- The latest value and the number of the statement are as given. -/
def Keeping (v : Value) (i : Nat) (m : Machine) : Prop := m.latest = v ∧ m.cursor = i

section Keeping

variable {m m' : Machine} {base : List Pending} {xs : List Shown}

theorem keeping_request (keep : Bool) (span : Span) (prompt : String) :
    Keeping m.latest m.cursor (m.request keep span prompt) := by
  unfold request
  split <;> exact ⟨rfl, rfl⟩

theorem keeping_settle (span : Span) (r : Except RuntimeFault Value) :
    Keeping m.latest m.cursor (m.settle span r) := by
  cases r <;> exact ⟨rfl, rfl⟩

theorem keeping_execStatement (s : Stmt) : Keeping m.latest m.cursor (m.execStatement s) := by
  cases s with
  | input keyword prompt span =>
    cases prompt with
    | none => exact keeping_request false span _
    | some e => exact ⟨rfl, rfl⟩
  | leave value span => cases value <;> exact ⟨rfl, rfl⟩
  | expr | print | assign | block | branch | loop | function => exact ⟨rfl, rfl⟩

theorem keeping_evalExpression (e : Expr) : Keeping m.latest m.cursor (m.evalExpression e) := by
  cases e with
  | name x span =>
    simp only [evalExpression]
    split <;> exact ⟨rfl, rfl⟩
  | array items span => cases items <;> exact ⟨rfl, rfl⟩
  | literal | assign | binary | logical | unary | call | group | property | element | setProperty | setElement =>
    exact ⟨rfl, rfl⟩

theorem keeping_runBuiltin (b : Builtin) (args : List Value) (span : Span) :
    Keeping m.latest m.cursor (m.runBuiltin b args span).1 := by
  show Keeping m.latest m.cursor (takeAnswer { m with store := (b.run args m.store).2 } span (b.run args m.store).1).1
  cases (b.run args m.store).1 with
  | ask prompt => exact keeping_request (m := { m with store := (b.run args m.store).2 }) true span prompt
  | value | write | writeLine | clear | fault => exact ⟨rfl, rfl⟩

theorem keeping_applyValue (callee : Value) (args : List Value) (span : Span) :
    Keeping m.latest m.cursor (m.applyValue callee args span).1 := by
  unfold applyValue
  split
  · split
    · split
      · exact keeping_runBuiltin _ args span
      · exact ⟨rfl, rfl⟩
    · exact keeping_runBuiltin _ args span
  · split
    · exact ⟨rfl, rfl⟩
    · split <;> exact ⟨rfl, rfl⟩
  · exact ⟨rfl, rfl⟩

/-- Of all work that takes a value, only an expression statement keeps it. -/
theorem keeping_takeValue (v : Value) {w : Pending} (hw : w ≠ .discard) :
    Keeping m.latest m.cursor (m.takeValue v w).1 := by
  cases w with
  | discard => exact absurd rfl hw
  | prompt span => exact keeping_request false span _
  | combine | unary | property | index => exact keeping_settle _ _
  | test | logical | setValue =>
    simp only [takeValue]
    split <;> exact ⟨rfl, rfl⟩
  | choose yes no =>
    simp only [takeValue]
    split
    · exact ⟨rfl, rfl⟩
    · split <;> exact ⟨rfl, rfl⟩
  | write newline => cases newline <;> exact ⟨rfl, rfl⟩
  | callee args span => cases args <;> exact ⟨rfl, rfl⟩
  | argument callee before rest span => cases rest <;> exact ⟨rfl, rfl⟩
  | item before rest => cases rest <;> exact ⟨rfl, rfl⟩
  | setProperty | setObject => cases v <;> exact ⟨rfl, rfl⟩
  | bind | assign | reply | block | again | returning | call | program | right | object | setIndex => exact ⟨rfl, rfl⟩

/-- If something is handed to a piece of pending work, that piece is no program. -/
def Aside (m : Machine) : Prop :=
  ∀ w rest, m.focus.isDue = true → m.pending = w :: rest → w.isProgram = false

theorem noted_of_not_give (h : ∀ v, m.focus ≠ .give v) : m.noted = m.latest := by
  unfold noted
  split
  · rename_i v _ hm _
    exact absurd hm (h v)
  · rfl

theorem noted_of_not_discard (h : ∀ rest, m.pending ≠ .discard :: rest) : m.noted = m.latest := by
  unfold noted
  split
  · rename_i rest _ hp
    exact absurd hp (h rest)
  · rfl

/-- An expression statement keeps its value where the machine takes itself to be at the top level. -/
theorem keeping_discard {v : Value} {rest : List Pending} (hm : m.focus = .give v) (hp : m.pending = .discard :: rest) :
    Keeping m.noted m.cursor m.step.1 := by
  rw [step_give hm hp]
  simp only [noted, hm, hp]
  by_cases ht : (m.depth == 0 && m.here == Store.globals) = true
  · have hs : ({ m with pending := rest } : Machine).takeValue v .discard =
        ({ m with pending := rest, focus := .done, latest := v }, none) := if_pos ht
    rw [if_pos ht, ← hm, hs]
    exact ⟨rfl, rfl⟩
  · have hs : ({ m with pending := rest } : Machine).takeValue v .discard =
        (({ m with pending := rest } : Machine).turn .done, none) := if_neg ht
    rw [if_neg ht, ← hm, hs]
    exact ⟨rfl, rfl⟩

/-- **What a step keeps.** -/
theorem keeping_step (ha : Aside m) : Keeping m.noted m.cursor m.step.1 := by
  cases hm : m.focus with
  | give v =>
    cases hp : m.pending with
    | nil =>
      simp only [step, noted, hm, hp]
      exact ⟨rfl, rfl⟩
    | cons w rest =>
      by_cases hw : w = .discard
      · exact keeping_discard hm (hp.trans (by rw [hw]))
      · rw [step_give hm hp, noted_of_not_discard (by simp [hp, hw])]
        exact keeping_takeValue (m := { m with pending := rest }) v hw
  | start s =>
    rw [noted_of_not_give (by simp [hm])]
    simp only [step, hm, startStatement]
    split
    · exact ⟨rfl, rfl⟩
    · split <;> exact ⟨rfl, rfl⟩
  | exec s =>
    rw [noted_of_not_give (by simp [hm])]
    simp only [step, hm]
    exact keeping_execStatement s
  | eval e =>
    rw [noted_of_not_give (by simp [hm])]
    simp only [step, hm]
    exact keeping_evalExpression e
  | apply callee args span =>
    rw [noted_of_not_give (by simp [hm])]
    simp only [step, hm]
    exact keeping_applyValue callee args span
  | await prompt =>
    rw [noted_of_not_give (by simp [hm])]
    simp only [step, hm]
    exact ⟨rfl, rfl⟩
  | done =>
    rw [noted_of_not_give (by simp [hm])]
    cases hp : m.pending with
    | nil =>
      simp only [step, hm, hp]
      exact ⟨rfl, rfl⟩
    | cons w rest =>
      have hw := ha w rest (by rw [hm]; rfl) hp
      rw [step_done hm hp]
      cases w with
      | program => cases hw
      | block outer more | call outer more => cases more <;> exact ⟨rfl, rfl⟩
      | _ => exact ⟨rfl, rfl⟩
  | leave v =>
    rw [noted_of_not_give (by simp [hm])]
    cases hp : m.pending with
    | nil =>
      simp only [step, hm, hp]
      exact ⟨rfl, rfl⟩
    | cons w rest =>
      have hw := ha w rest (by rw [hm]; rfl) hp
      rw [step_leave hm hp]
      cases w with
      | program => cases hw
      | _ => exact ⟨rfl, rfl⟩
  | fail d =>
    rw [noted_of_not_give (by simp [hm])]
    cases hp : m.pending with
    | nil =>
      simp only [step, hm, hp]
      exact ⟨rfl, rfl⟩
    | cons w rest =>
      rw [step_fail hm hp]
      cases w <;> exact ⟨rfl, rfl⟩

theorem cursor_heed (m : Machine) (v : Verdict) : (m.heed v).cursor = m.cursor := by
  unfold heed
  cases v.course <;> cases v.stop <;> rfl

/-- **What a move keeps**, as long as no program goes on. Where nothing but the flag changes, the step is still to
come. -/
theorem Move.keeps (hm : Move m xs m') (ha : Aside m) :
    Keeping m.noted m.cursor m' ∨ ∃ stopped, m' = { m with stopped := stopped } := by
  cases hm with
  | step hs =>
    have h := keeping_step ha
    rw [hs] at h
    exact Or.inl h
  | event v hs =>
    have h := keeping_step ha
    rw [hs] at h
    exact Or.inl ⟨(latest_heed _ v).trans h.1, (cursor_heed _ v).trans h.2⟩
  | answer r hf =>
    rw [noted_of_not_give (by simp [hf])]
    refine Or.inl ?_
    unfold Machine.answer
    split
    · cases r with
      | line text => dsimp only; split <;> exact ⟨rfl, rfl⟩
      | cancelled => dsimp only; split <;> exact ⟨rfl, rfl⟩
    · exact ⟨rfl, rfl⟩
  | flag stopped => exact Or.inr ⟨stopped, rfl⟩

end Keeping

/-! ## Apart from the global frame -/

/-- Inside a block or a call, a chain of work goes on in other frames than the global one. -/
def Apart : List Pending → Place → Prop
  | [], _ => True
  | w :: rest, place =>
    ((w :: rest).any Pending.isScope = true → place.1 ≠ Store.globals) ∧ Apart rest (w.exit place)

section Apart

variable {inner : List Pending} {place : Place} {base : List Pending} {m m' : Machine}

theorem Apart.ne_globals (h : Apart inner place) (hs : inner.any Pending.isScope = true) : place.1 ≠ Store.globals := by
  cases inner with
  | nil => cases hs
  | cons w rest => exact h.1 hs

/-- Work that is begun where the machine stands. -/
theorem Apart.append {ws : List Pending} (hws : ∀ w ∈ ws, w.isRow = false) (h : Apart inner place) :
    Apart (ws ++ inner) place := by
  induction ws with
  | nil => exact h
  | cons w ws ih =>
    obtain ⟨hw, hrest⟩ := List.forall_mem_cons.1 hws
    have hscope := (Pending.of_not_isRow hw).1
    refine ⟨fun hs => ?_, ?_⟩
    · have hany : (ws ++ inner).any Pending.isScope = true := by simpa [hscope] using hs
      exact (ih hrest).ne_globals hany
    · rw [Pending.exit_of_not_isScope hscope]
      exact ih hrest

/-- What leads to the same places is a scope if the other is. -/
theorem isScope_of_exit {w w' : Pending} (hx : ∀ place, w'.exit place = w.exit place) (h : w'.isScope = true) :
    w.isScope = true := by
  cases hw : w.isScope with
  | true => rfl
  | false =>
    exfalso
    have hsame : ∀ place, w'.exit place = place := fun place =>
      (hx place).trans (Pending.exit_of_not_isScope hw place)
    cases w' with
    | block outer rest | call outer rest =>
      have hne := congrArg Prod.fst (hsame (outer + 1, .none))
      exact absurd hne (Nat.ne_of_lt (Nat.lt_succ_self outer))
    | _ => cases h

/-- **A shift keeps blocks and calls apart from the global frame**: a frame that is entered is a new one. -/
theorem Shift.apart (hs : Shift m m') (ha : Above base m) (hg : Store.globals < m.store.scopes.size)
    (hi : m.pending = inner ++ base) (h : Apart inner m.place) :
    ∃ inner', m'.pending = inner' ++ base ∧ Apart inner' m'.place := by
  cases hs with
  | @look ws hb =>
    refine ⟨ws ++ inner, by rw [hb.pending, hi, List.append_assoc], ?_⟩
    rw [hb.place]
    exact h.append hb.rowless
  | @enter w _ hp hh hx _ _ _ =>
    refine ⟨w :: inner, by rw [hp, hi, List.cons_append], fun _ => ?_, ?_⟩
    · show m'.here ≠ Store.globals
      rw [hh]
      exact Nat.ne_of_gt hg
    · rw [hx]
      exact h
  | @hand w rest ws hd hp hw hb =>
    obtain ⟨more, rfl, rfl⟩ := ha.top hi hd hp
    obtain ⟨-, hmore⟩ := h
    rw [Pending.exit_of_not_isScope hw] at hmore
    refine ⟨ws ++ more, by rw [hb.pending, List.append_assoc], ?_⟩
    rw [hb.place]
    exact Apart.append hb.rowless hmore
  | @next w w' rest hd hp hp' _ _ _ hx hl =>
    obtain ⟨more, rfl, rfl⟩ := ha.top hi hd hp
    obtain ⟨hw, hmore⟩ := h
    refine ⟨w' :: more, by rw [hp', List.cons_append], fun hscope => ?_, ?_⟩
    · rw [hl]
      refine hw ?_
      rcases Bool.or_eq_true_iff.1 hscope with hscope | hscope
      · exact Bool.or_eq_true_iff.2 (Or.inl (isScope_of_exit hx hscope))
      · exact Bool.or_eq_true_iff.2 (Or.inr hscope)
    · rw [hx, hl]
      exact hmore
  | @leave w rest hd hp _ hp' hl _ =>
    obtain ⟨more, rfl, rfl⟩ := ha.top hi hd hp
    refine ⟨more, hp', ?_⟩
    rw [hl]
    exact h.2

/-- Outside all blocks and calls, the place is the one outside. -/
theorem exitAll_of_unscoped (h : inner.any Pending.isScope = false) : exitAll inner place = place := by
  induction inner generalizing place with
  | nil => rfl
  | cons w rest ih =>
    obtain ⟨hw, hrest⟩ := Bool.or_eq_false_iff.1 h
    rw [exitAll, Pending.exit_of_not_isScope hw, ih hrest]

end Apart

/-! ## Inside blocks and calls -/

section Scoped

variable {base : List Pending} {m m' : Machine} {d : Nat} {xs : List Shown}

/-- Above `base` no program was begun, so none is handed anything. -/
theorem Tallied.aside (h : Tallied base d m) (ha : Above base m) : Aside m := by
  intro w rest hd hp
  obtain ⟨inner, hi, -, hn⟩ := h
  obtain ⟨more, rfl, -⟩ := ha.top hi hd hp
  exact hn w (by simp)

/-- Outside the global frame no value is kept. -/
theorem noted_of_ne_globals (h : ∀ rest, m.pending = .discard :: rest → m.focus.isDue = true → m.here ≠ Store.globals) :
    m.noted = m.latest := by
  unfold noted
  split
  · rename_i v rest hm hp
    have hne := h rest hp (by rw [hm]; rfl)
    have hf : (m.here == Store.globals) = false := beq_eq_false_iff_ne.2 hne
    simp [hf]
  · rfl

/-- **What has frames of its own keeps no value.** -/
theorem latest_of_confined {home : Place} {p : Product} (hc : Carried base m xs m') (hw : Working base home p m)
    (hp : p ≠ .line) (ht : Tallied base d m) (hg : Store.globals < m.store.scopes.size)
    (h : Confined (· ≠ Store.globals) base m) : m'.latest = m.latest := by
  induction hc with
  | refl => rfl
  | @move m m₁ _ _ _ hb hm _ ih =>
    have ha := hw.above hp hb
    have hs := hw.shift hb hm
    have hgrows : Grows (fun _ => True) m m₁ := hm.grows (fun _ => trivial) fun _ => trivial
    have hnoted : m.noted = m.latest := by
      refine noted_of_ne_globals fun rest hpending hd => h.ok_here ha (Or.inr ⟨hd, _, rest, hpending, rfl⟩)
    have hlatest : m₁.latest = m.latest := by
      rcases hm.keeps (ht.aside ha) with hk | ⟨stopped, rfl⟩
      · exact hk.1.trans hnoted
      · rfl
    exact (ih (hm.working hw hp hb) (hs.tallied ha ht) (Nat.lt_of_lt_of_le hg hgrows.size)
      (hs.confined ha (Nat.ne_of_gt hg) h)).trans hlatest

end Scoped

/-! ## A program on its way -/

/-- A program has come to statement number `i` and is at work on it. -/
structure Carrying (p : Program) (i : Nat) (past : List Machine) (m : Machine) : Prop where
  begun : ∃ s before start during, p[i]? = some s ∧ past ++ [m] = before ++ start :: during ∧
    start.focus = .start s ∧ start.pending = after p i ∧ ∀ x ∈ during, ∃ inner, x.pending = inner ++ after p i
  working : Working (after p i) (Store.globals, .none) .statement m
  tallied : Tallied (after p i) 0 m
  apart : ∃ inner, m.pending = inner ++ after p i ∧ Apart inner m.place
  frames : Store.globals < m.store.scopes.size
  noted : m.noted = lastValue (past ++ [m])
  cursor : m.cursor = i

/-- How a program stands that was begun and has not ended. -/
inductive Midway (p : Program) (past : List Machine) (m : Machine) : Prop
  | opening : m.focus = .done → m.pending = [.program 0 p] → m.place = (Store.globals, .none) →
      Store.globals < m.store.scopes.size → m.latest = lastValue past → Midway p past m
  | carrying {i : Nat} : Carrying p i past m → Midway p past m

section Midway

variable {p : Program} {i : Nat} {past : List Machine} {m m' : Machine} {xs : List Shown}

theorem lastValue_append (past : List Machine) (m : Machine) :
    lastValue (past ++ [m]) = m.topValue?.getD (lastValue past) := by
  unfold lastValue
  rw [List.filterMap_append]
  cases h : m.topValue? with
  | none => simp [h]
  | some v => simp [h]

/-- **A value is kept exactly where the statement is outside all blocks and calls.** -/
theorem noted_eq {inner : List Pending} (hw : Working (after p i) (Store.globals, .none) .statement m)
    (hi : m.pending = inner ++ after p i) (ha : Apart inner m.place) :
    m.noted = m.topValue?.getD m.latest := by
  unfold noted topValue?
  split
  · rename_i v rest hm hp
    rw [hi] at hp
    cases inner with
    | nil => cases hp
    | cons w inner =>
      rw [List.cons_append] at hp
      obtain ⟨rfl, rfl⟩ := List.cons.inj hp
      have hany : (inner ++ after p i).any Pending.isScope = inner.any Pending.isScope := by
        simp [after, Pending.isScope]
      rw [hany]
      cases hscope : inner.any Pending.isScope with
      | true =>
        have hne : m.here ≠ Store.globals := ha.1 (by rw [List.any_cons, hscope, Bool.or_true])
        have hf : (m.here == Store.globals) = false := beq_eq_false_iff_ne.2 hne
        simp [hf]
      | false =>
        obtain ⟨inner', hi', -, hx⟩ := hw
        obtain rfl : inner' = .discard :: inner := List.append_cancel_right (hi'.symm.trans hi)
        have hplace : m.place = (Store.globals, .none) := by
          rw [← hx]
          exact (@exitAll_of_unscoped (.discard :: inner) m.place hscope).symm
        have hhere : m.here = Store.globals := congrArg Prod.fst hplace
        have hdepth : m.depth = 0 := congrArg (fun place : Place => place.2.depth) hplace
        simp [hhere, hdepth]
  · rfl

/-- Work on a statement goes on: the moment is added to those before it. -/
theorem Carrying.later (h : Carrying p i past m) {inner : List Pending} (hi : m'.pending = inner ++ after p i) :
    ∃ s before start during, p[i]? = some s ∧ past ++ [m] ++ [m'] = before ++ start :: during ∧
      start.focus = .start s ∧ start.pending = after p i ∧ ∀ x ∈ during, ∃ inner, x.pending = inner ++ after p i := by
  obtain ⟨s, before, start, during, hs, hpast, hfocus, hpending, hduring⟩ := h.begun
  refine ⟨s, before, start, during ++ [m'], hs, by rw [hpast]; simp, hfocus, hpending, ?_⟩
  refine List.forall_mem_append.2 ⟨hduring, fun x hx => ?_⟩
  rw [List.mem_singleton.1 hx]
  exact ⟨inner, hi⟩

theorem Carrying.flag (h : Carrying p i past m) (stopped : Bool) :
    Carrying p i (past ++ [m]) { m with stopped := stopped } := by
  obtain ⟨inner, hi, ha⟩ := h.apart
  refine ⟨h.later hi, h.working.stopped stopped, h.tallied, ⟨inner, hi, ha⟩, h.frames, ?_, h.cursor⟩
  show m.noted = _
  rw [lastValue_append, ← h.noted, show topValue? { m with stopped := stopped } = m.topValue? from rfl,
    noted_eq h.working hi ha]
  cases m.topValue? <;> rfl

/-- **A move on top of the rest of the program goes on with the statement.** -/
theorem Carrying.move (h : Carrying p i past m) (hb : ¬m.Back (after p i)) (hm : Move m xs m') :
    Carrying p i (past ++ [m]) m' := by
  have habove := h.working.above (by decide) hb
  have hs := h.working.shift hb hm
  have hgrows : Grows (fun _ => True) m m' := hm.grows (fun _ => trivial) fun _ => trivial
  rcases hm.keeps (h.tallied.aside habove) with ⟨hlatest, hcursor⟩ | ⟨stopped, rfl⟩
  · obtain ⟨inner, hi, ha⟩ := h.apart
    obtain ⟨inner', hi', ha'⟩ := hs.apart habove h.frames hi ha
    have hworking := hm.working h.working (by decide) hb
    refine ⟨h.later hi', hworking, hs.tallied habove h.tallied, ⟨inner', hi', ha'⟩,
      Nat.lt_of_lt_of_le h.frames hgrows.size, ?_, hcursor.trans h.cursor⟩
    rw [noted_eq hworking hi' ha', lastValue_append, hlatest, h.noted]
  · exact h.flag stopped

/-- A program comes to its next statement. -/
theorem carrying_start {s : Stmt} (hs : p[i]? = some s) (hf : m.focus = .start s) (hp : m.pending = after p i)
    (hl : m.place = (Store.globals, .none)) (hg : Store.globals < m.store.scopes.size)
    (hlatest : m.latest = lastValue past) (hc : m.cursor = i) : Carrying p i past m := by
  have hdepth : m.depth = 0 := congrArg (fun place : Place => place.2.depth) hl
  refine ⟨⟨s, past, m, [], hs, rfl, hf, hp, by simp⟩, ?_, ⟨[], hp, hdepth, by simp⟩, ⟨[], hp, trivial⟩, hg, ?_, hc⟩
  · refine ⟨[], hp, ?_, hl⟩
    rw [hf]
    rfl
  · rw [noted_of_not_give (by simp [hf]), hlatest, lastValue_append]
    simp [topValue?, hf]

/-- What a program does when a statement has ended: it goes on with the next one, or comes to its value. -/
theorem midway_next {j : Nat} (hf : m.focus = .done) (hp : m.pending = [.program j (p.drop j)]) (hj : j ≤ p.length)
    (hl : m.place = (Store.globals, .none)) (hg : Store.globals < m.store.scopes.size)
    (hlatest : m.latest = lastValue (past ++ [m])) :
    Midway p (past ++ [m]) m.step.1 ∨
      ∃ result, m.step.1.finished? = some result ∧ EndsAs (past ++ [m]) p m.step.1.cursor result := by
  rw [step_done hf hp]
  cases hrest : p.drop j with
  | nil =>
    refine Or.inr ⟨.ok m.latest, rfl, hlatest, ?_⟩
    show j = p.length
    exact Nat.le_antisymm hj (List.drop_eq_nil_iff.1 hrest)
  | cons s rest =>
    have hs : p[j]? = some s := by
      rw [← List.head?_drop, hrest]
      rfl
    have hdrop : p.drop (j + 1) = rest := by
      rw [← List.tail_drop, hrest]
      rfl
    refine Or.inl (.carrying (carrying_start hs rfl ?_ hl hg hlatest rfl))
    rw [after, hdrop]
    rfl

/-- The failure of a statement is the failure of the program. -/
theorem Carrying.failed (h : Carrying p i past m) {d : Diagnostic} (hf : m.focus = .fail d)
    (hp : m.pending = after p i) : FailedAt (past ++ [m]) p i d := by
  obtain ⟨s, before, start, during, hs, hpast, hfocus, hpending, hduring⟩ := h.begun
  refine ⟨s, before, start, during, m, hs, hpast, hfocus, hpending, hduring, ?_, hf, hp⟩
  have hlast := congrArg List.getLast? hpast
  rw [List.getLast?_concat, List.getLast?_append, List.getLast?_cons] at hlast
  cases hd : during.getLast? with
  | some x => simpa [hd] using hlast.symm
  | none =>
    -- the statement that was just come to has not failed yet
    obtain rfl : m = start := by simpa [hd] using hlast
    rw [hf] at hfocus
    cases hfocus

/-- **At the end of a statement the program goes on or ends.** -/
theorem Carrying.ends (h : Carrying p i past m) (hb : m.Back (after p i)) (hm : Move m xs m') :
    Midway p (past ++ [m]) m' ∨ ∃ result, m'.finished? = some result ∧ EndsAs (past ++ [m]) p m'.cursor result := by
  obtain ⟨hp, ho⟩ := hb
  have hplace := h.working.home ⟨hp, ho⟩
  obtain ⟨s, -, -, -, hs, -⟩ := h.begun
  have hlt : i < p.length := (List.getElem?_eq_some_iff.1 hs).1
  have hlatest : m.latest = lastValue (past ++ [m]) := by
    rw [← h.noted, noted_of_not_discard (by simp [hp, after])]
  have hstep : m.step.2 = none ∧ (Midway p (past ++ [m]) m.step.1 ∨
      ∃ result, m.step.1.finished? = some result ∧ EndsAs (past ++ [m]) p m.step.1.cursor result) := by
    cases hf : m.focus with
    | start | exec | eval | apply | await =>
      rw [hf] at ho
      cases ho
    | give v =>
      -- a statement comes to no value
      obtain ⟨inner, hi, hy, -⟩ := h.working
      obtain rfl : inner = [] := by simpa using hp.symm.trans hi
      rw [hf] at hy
      cases hy
    | done => exact ⟨by rw [step_done hf hp], midway_next hf hp hlt hplace h.frames hlatest⟩
    | leave v =>
      rw [step_leave hf hp]
      refine ⟨rfl, Or.inr ⟨.ok m.latest, rfl, hlatest, ?_⟩⟩
      show i + 1 + (p.drop (i + 1)).length = p.length
      rw [List.length_drop]
      omega
    | fail d =>
      have hfinished : m.step.1.finished? = some (.error d) := by
        rw [step_fail hf hp]
        simp only [failThrough, finished?, hf]
      refine ⟨by rw [step_fail hf hp], Or.inr ⟨.error d, hfinished, ?_⟩⟩
      have hcursor : m.step.1.cursor = i := by
        rw [step_fail hf hp]
        exact h.cursor
      rw [hcursor]
      exact h.failed hf hp
  cases hm with
  | step hs =>
    rw [hs] at hstep
    exact hstep.2
  | event v hs =>
    rw [hs] at hstep
    cases hstep.1
  | answer r hf =>
    rw [hf] at ho
    cases ho
  | flag stopped => exact Or.inl (.carrying (h.flag stopped))

/-- **A move of a program on its way** keeps it on its way or ends it. -/
theorem Midway.move (h : Midway p past m) (hm : Move m xs m') :
    Midway p (past ++ [m]) m' ∨ ∃ result, m'.finished? = some result ∧ EndsAs (past ++ [m]) p m'.cursor result := by
  cases h with
  | @carrying i h =>
    by_cases hb : m.Back (after p i)
    · exact h.ends hb hm
    · exact Or.inl (.carrying (h.move hb hm))
  | opening hf hp hl hg hlatest =>
    have hsame : m.latest = lastValue (past ++ [m]) := by
      rw [lastValue_append, ← hlatest]
      simp [topValue?, hf]
    cases hm with
    | step hs =>
      have h := midway_next hf (by rw [hp, List.drop_zero]) (Nat.zero_le _) hl hg hsame
      rwa [hs] at h
    | event v hs =>
      rw [step_done hf hp] at hs
      cases hs
    | answer r hf' =>
      rw [hf] at hf'
      cases hf'
    | flag stopped => exact Or.inl (.opening hf hp hl hg hsame)

/-- A whole run of a program. -/
theorem midway_of_trail {m : Machine} (hh : m.here = Store.globals) (hc : m.calls = .none)
    (hg : Store.globals < m.store.scopes.size) (ht : Trail [] (m.begin p) past m') :
    Midway p past m' ∨ ∃ result, m'.finished? = some result ∧ EndsAs past p m'.cursor result := by
  induction ht with
  | refl => exact Or.inl (.opening rfl rfl (Prod.ext hh hc) hg rfl)
  | move _ hb hm ih =>
    rcases ih with h | ⟨result, hf, -⟩
    · exact h.move hm
    · exact absurd (back_of_finished hf) hb

theorem Midway.pending_ne_nil (h : Midway p past m) : m.pending ≠ [] := by
  intro hn
  cases h with
  | opening _ hp => rw [hp] at hn; cases hn
  | carrying h =>
    obtain ⟨inner, hi, -⟩ := h.apart
    rw [hi] at hn
    cases (List.append_eq_nil_iff.1 hn).2

end Midway

/-- A run is a trail. -/
theorem Trail.carried {base : List Pending} {m₀ m m' : Machine} {past : List Machine} {xs : List Shown}
    (ht : Trail base m₀ past m) (hc : Carried base m xs m') : ∃ past', Trail base m₀ past' m' := by
  induction hc generalizing past with
  | refl => exact ⟨past, ht⟩
  | move hb hm _ ih => exact ih (ht.move hb hm)

end Machine

open Machine in
/-- **A program comes to the value of its last expression statement at the top level**, or to null if it carried out
none; its cursor is then behind its last statement. If it fails, the cursor is at the statement that failed. So it is
for every run that begins in the global frame and inside no call, whatever is decided, answered or flagged on the way,
and so for every run under a hook. A block and a call, undertaken anywhere and however they end, leave the latest value
alone at every moment. -/
theorem program_comes_to_last_value :
    (∀ (m m' : Machine) (p : Program) (past : List Machine) (result : Except Diagnostic Value),
      m.here = Store.globals → m.calls = .none → Store.globals < m.store.scopes.size →
      Trail [] (m.begin p) past m' → m'.finished? = some result → EndsAs past p m'.cursor result) ∧
    (∀ (η : Type) (h : Hook η) (s s' : Session) (p : Program) (fuel : Nat) (state state' : η)
      (result : Except Diagnostic Value), s.machine.here = Store.globals → s.machine.calls = .none →
      Store.globals < s.machine.store.scopes.size →
      s.drive h state fuel (s.machine.begin p) = some (result, state', s') →
      ∃ past, Trail [] (s.machine.begin p) past s'.machine ∧ EndsAs past p s'.machine.cursor result) ∧
    ∀ (m m' : Machine) (t : Task) (shown : List Shown), Store.globals < m.store.scopes.size →
      ((∃ body span, t = .statement (.block body span)) ∨ ∃ callee args span, t = .call callee args span) →
      Carried m.pending (m.undertake t) shown m' → m'.latest = m.latest := by
  have hends : ∀ {m m' : Machine} {p : Program} {past : List Machine} {result : Except Diagnostic Value},
      m.here = Store.globals → m.calls = .none → Store.globals < m.store.scopes.size →
      Trail [] (m.begin p) past m' → m'.finished? = some result → EndsAs past p m'.cursor result := by
    intro m m' p past result hh hc hg ht hf
    rcases midway_of_trail hh hc hg ht with h | ⟨result', hf', he⟩
    · exact absurd (back_of_finished hf).1 h.pending_ne_nil
    · rw [hf] at hf'
      cases hf'
      exact he
  refine ⟨fun m m' p past result => hends, ?_, ?_⟩
  · intro η h s s' p fuel state state' result hh hc hg hd
    obtain ⟨-, shown, hcarried, -⟩ := Session.carried_of_drive hd
    obtain ⟨past, ht⟩ := Trail.refl.carried hcarried
    exact ⟨past, ht, hends hh hc hg ht (Session.finished_of_drive hd)⟩
  · intro m m' t shown hg ht hc
    have hscope : t.scope m.here = none := by
      rcases ht with ⟨body, span, rfl⟩ | ⟨callee, args, span, rfl⟩ <;> rfl
    have hsame : (m.undertake t).latest = m.latest ∧ (m.undertake t).store = m.store ∧
        Tallied m.pending m.depth (m.undertake t) := by
      rcases ht with ⟨body, span, rfl⟩ | ⟨callee, args, span, rfl⟩ <;>
        exact ⟨rfl, rfl, [], rfl, rfl, by simp⟩
    have hconfined : Confined (· ≠ Store.globals) m.pending (m.undertake t) :=
      confined_undertake m t fun f hf => by rw [hscope] at hf; cases hf
    rw [← hsame.1]
    exact latest_of_confined hc (working_undertake m t) (Task.product_ne_line t) hsame.2.2 (by rw [hsame.2.1]; exact hg)
      hconfined

/-- A text and a branch without braces that comes to another; then a block that comes to a third. -/
def branchThenBlock : Program :=
  let text (t : String) : Stmt := .expr (.literal (.text t) ⟨0, 0, 1⟩) ⟨0, 0, 1⟩
  [text "a", .branch (.literal (.boolean true) ⟨0, 0, 1⟩) (text "b") none ⟨0, 0, 1⟩, .block [text "c"] ⟨0, 0, 1⟩]

/-- The same, with a statement behind it that fails. -/
def branchThenFailure : Program :=
  branchThenBlock ++ [.expr (.unary .negate (.literal .null ⟨0, 0, 1⟩) ⟨0, 0, 1⟩) ⟨0, 0, 1⟩]

open Machine in
/-- The value of the branch counts and that of the block does not. A failure leaves the cursor at its statement; and a
block that fails has kept nothing. -/
theorem program_comes_to_last_value_branchThenBlock :
    (∃ s s' : Session, s.drive .idle () 60 (s.machine.begin branchThenBlock) = some (.ok (.text "b"), (), s') ∧
      ∃ past, Trail [] (s.machine.begin branchThenBlock) past s'.machine ∧ lastValue past = .text "b" ∧
        s'.machine.cursor = 3) ∧
    (∃ (s s' : Session) (d : Diagnostic),
      s.drive .idle () 60 (s.machine.begin branchThenFailure) = some (.error d, (), s') ∧
      ∃ past, Trail [] (s.machine.begin branchThenFailure) past s'.machine ∧ FailedAt past branchThenFailure 3 d) ∧
    ∃ (s s' : Session) (d : Diagnostic),
      s.drive .idle () 30 (s.machine.undertake failingBlock) = some (.error d, (), s') ∧
      s'.machine.latest = s.machine.latest := by
  let s := Session.new .empty .default (.script (.ofInputs []))
  refine ⟨?_, ?_, ?_⟩
  · obtain ⟨s', hd⟩ : ∃ s', s.drive .idle () 60 (s.machine.begin branchThenBlock) = some (.ok (.text "b"), (), s') :=
      ⟨_, rfl⟩
    obtain ⟨past, ht, hv, hc⟩ := program_comes_to_last_value.2.1 Unit .idle s s' branchThenBlock 60 () () _ rfl rfl
      (by decide) hd
    exact ⟨s, s', hd, past, ht, hv.symm, hc⟩
  · obtain ⟨d, s', hd, hc⟩ : ∃ d s', s.drive .idle () 60 (s.machine.begin branchThenFailure) = some (.error d, (), s') ∧
        s'.machine.cursor = 3 := ⟨_, _, rfl, rfl⟩
    obtain ⟨past, ht, he⟩ := program_comes_to_last_value.2.1 Unit .idle s s' branchThenFailure 60 () () _ rfl rfl
      (by decide) hd
    rw [hc] at he
    exact ⟨s, s', d, hd, past, ht, he⟩
  · obtain ⟨d, s', hd⟩ : ∃ d s', s.drive .idle () 30 (s.machine.undertake failingBlock) = some (.error d, (), s') :=
      ⟨_, _, rfl⟩
    obtain ⟨-, shown, hc, -⟩ := Session.carried_of_drive hd
    have hl := program_comes_to_last_value.2.2 s.machine s'.machine failingBlock shown (by decide)
      (Or.inl ⟨_, _, rfl⟩) hc
    exact ⟨s, s', d, hd, hl⟩

end StepScript
