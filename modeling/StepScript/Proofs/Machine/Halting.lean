import StepScript.Machine.Weight
import StepScript.Proofs.Machine.Work

/-!
# The steps of a machine that was stopped

Once a machine has been told to stop, every statement that it comes to fails at once and every read is given up, so all
that goes on is the evaluation of expressions. That ends: each step takes something off the weight of the machine
(`winds_step`).

On the way no statement is announced and no line is asked for (`Winds`).
-/

namespace StepScript

/-! ## Weights -/

attribute [grind =] Expr.weight Expr.weights Stmt.weight Pending.weight load Focus.weight

theorem Pending.three_le_weight (w : Pending) : 3 ≤ w.weight := by
  cases w <;> simp only [weight] <;> omega

theorem lt_weight_add (w : Pending) (n : Nat) : n < w.weight + n := by
  have hw := w.three_le_weight
  omega

theorem length_le_load : ∀ ws : List Pending, ws.length ≤ load ws
  | [] => Nat.le_refl 0
  | w :: ws => by
    have hw := w.three_le_weight
    have hws := length_le_load ws
    rw [load, List.length_cons]
    omega

/-- As a failure, a machine has the least weight. -/
theorem Machine.length_le_weight (m : Machine) : m.pending.length ≤ m.weight := by
  have hload := length_le_load m.pending
  unfold Machine.weight Focus.weight
  split <;> omega

namespace Machine

/-! ## One step -/

/-- A machine that was told to stop and waits for no line. -/
structure Halting (m : Machine) : Prop where
  stopped : m.stopped = true
  unasked : m.waiting? = none

/-- What a step leads to, in a machine that was stopped: below the bound, and no statement is announced. -/
structure Winds (bound : Nat) (r : Machine × Option Event) : Prop where
  halting : r.1.Halting
  lighter : r.1.weight < bound
  quiet : ∀ e ∈ r.2, ∀ line, e ≠ .visit line

/-- Where no event is shown, no statement is announced. -/
theorem quiet_none : ∀ e ∈ (none : Option Event), ∀ line, e ≠ .visit line := nofun

theorem enter_pending (m : Machine) (parent : FrameId) : (m.enter parent).pending = m.pending := rfl

section Operations

variable {m : Machine} (h : m.stopped = true) {b : Nat}
include h

theorem winds_turn {f : Focus} (hf : (m.turn f).waiting? = none) (hb : f.weight m.pending < b) :
    Winds b (m.turn f, none) := ⟨⟨h, hf⟩, hb, quiet_none⟩

theorem winds_push {f : Focus} {w : Pending} (hf : (m.push f w).waiting? = none)
    (hb : f.weight (w :: m.pending) < b) : Winds b (m.push f w, none) := ⟨⟨h, hf⟩, hb, quiet_none⟩

theorem winds_raise {span : Span} {f : RuntimeFault} (hb : m.pending.length < b) : Winds b (m.raise span f, none) :=
  ⟨⟨h, rfl⟩, hb, quiet_none⟩

theorem winds_settle {span : Span} {r : Except RuntimeFault Value} (hb : load m.pending < b) :
    Winds b (m.settle span r, none) := by
  cases r with
  | ok v => exact ⟨⟨h, rfl⟩, hb, quiet_none⟩
  | error f => exact winds_raise h (Nat.lt_of_le_of_lt (length_le_load _) hb)

/-- A read is given up. -/
theorem winds_request {keep : Bool} {span : Span} {prompt : String} (hb : load m.pending < b) :
    Winds b (m.request keep span prompt, none) := by
  unfold request
  rw [if_pos h]
  exact ⟨⟨h, rfl⟩, Nat.lt_of_le_of_lt (length_le_load _) hb, quiet_none⟩

/-- A statement fails. -/
theorem winds_startStatement (s : Stmt) : Winds (m.pending.length + 1) (m.startStatement s) := by
  unfold startStatement
  rw [if_pos h]
  exact ⟨⟨h, rfl⟩, Nat.lt_succ_self _, quiet_none⟩

theorem winds_execStatement (s : Stmt) : Winds (s.weight + load m.pending) (m.execStatement s, none) := by
  cases s with
  | expr | print | assign | branch | loop => exact winds_push h rfl (by grind)
  | input keyword prompt span =>
    cases prompt with
    | none => exact winds_request h (by grind)
    | some e => exact winds_push h rfl (by grind)
  | block body span => exact winds_push (m := m.enter m.here) h rfl (by grind [enter_pending])
  | function x params body span => exact ⟨⟨h, rfl⟩, by show load m.pending < 4 + load m.pending; omega, quiet_none⟩
  | leave value span =>
    cases value with
    | none => exact winds_turn h rfl (by grind)
    | some e => exact winds_push h rfl (by grind)

theorem winds_evalExpression (e : Expr) : Winds (e.weight + load m.pending) (m.evalExpression e, none) := by
  cases e with
  | literal value span => exact winds_turn h rfl (by grind)
  | name x span =>
    simp only [evalExpression]
    split
    · exact winds_turn h rfl (by grind)
    · exact winds_raise h (by grind [length_le_load])
  | array items span =>
    cases items with
    | nil => exact ⟨⟨h, rfl⟩, by show load m.pending < 0 + 3 + load m.pending; omega, quiet_none⟩
    | cons e rest => exact winds_push h rfl (by grind)
  | group inner span => exact winds_turn h rfl (by grind)
  | assign | binary | logical | unary | call | property | element | setProperty | setElement =>
    exact winds_push h rfl (by grind)

theorem winds_takeAnswer {span : Span} {a : Answer} (hb : load m.pending < b) : Winds b (m.takeAnswer span a) := by
  cases a with
  | ask prompt => exact winds_request h hb
  | fault f => exact winds_raise h (by grind [length_le_load])
  | value v => exact winds_turn h rfl hb
  | write | writeLine | clear => exact ⟨⟨h, rfl⟩, hb, by simp [takeAnswer]⟩

theorem winds_runBuiltin (f : Builtin) (args : List Value) (span : Span) (hb : load m.pending < b) :
    Winds b (m.runBuiltin f args span) :=
  winds_takeAnswer (m := { m with store := (f.run args m.store).2 }) h hb

/-- A function that is called is entered, but its body is not begun. -/
theorem winds_applyValue (callee : Value) (args : List Value) (span : Span) :
    Winds (4 + load m.pending) (m.applyValue callee args span) := by
  have hlength := length_le_load m.pending
  unfold applyValue
  split
  · split
    · split
      · exact winds_runBuiltin h _ args span (by omega)
      · exact winds_raise h (by omega)
    · exact winds_runBuiltin h _ args span (by omega)
  · split
    · exact winds_raise h (by omega)
    · split
      · exact winds_raise h (by omega)
      · exact ⟨⟨h, rfl⟩, by show 3 + load m.pending < 4 + load m.pending; omega, quiet_none⟩
  · exact winds_raise h (by omega)

/-- Work that is handed a value goes on to the next expression, to a statement or to its end. -/
theorem winds_takeValue (v : Value) (w : Pending) : Winds (w.weight + load m.pending) (m.takeValue v w) := by
  have hlength := length_le_load m.pending
  have hpositive := lt_weight_add w (load m.pending)
  cases w with
  | discard =>
    simp only [takeValue]
    split <;> exact ⟨⟨h, rfl⟩, hpositive, quiet_none⟩
  | write newline => cases newline <;> exact ⟨⟨h, rfl⟩, hpositive, by simp [takeValue]⟩
  | prompt span => exact winds_request h hpositive
  | choose yes no =>
    simp only [takeValue]
    split
    · exact winds_turn h rfl (by grind)
    · split
      · exact winds_turn h rfl (by grind)
      · exact winds_turn h rfl hpositive
  | test condition body =>
    simp only [takeValue]
    split
    · exact ⟨⟨h, rfl⟩, by show m.pending.length + 1 + 1 < 3 + load m.pending; omega, by simp⟩
    · exact winds_turn h rfl hpositive
  | combine | unary | property | index => exact winds_settle h hpositive
  | logical op operand =>
    simp only [takeValue]
    split
    · exact winds_turn h rfl hpositive
    · exact winds_turn h rfl (by grind)
  | callee args span =>
    cases args with
    | nil => exact winds_turn h rfl (by grind)
    | cons e rest => exact winds_push h rfl (by grind)
  | argument callee before rest span =>
    cases rest with
    | nil => exact winds_turn h rfl (by grind)
    | cons e rest => exact winds_push h rfl (by grind)
  | item before rest =>
    cases rest with
    | nil => exact ⟨⟨h, rfl⟩, hpositive, quiet_none⟩
    | cons e rest => exact winds_push h rfl (by grind)
  | right | object | setIndex => exact winds_push h rfl (by grind)
  | setProperty x span => cases v <;> exact winds_raise h (by grind)
  | setObject position value span =>
    cases v with
    | null => exact winds_raise h (by grind)
    | _ => exact winds_push h rfl (by grind)
  | setValue object position span =>
    simp only [takeValue]
    split
    · exact ⟨⟨h, rfl⟩, hpositive, quiet_none⟩
    · exact winds_raise h (by grind)
  | returning => exact winds_turn h rfl hpositive
  | bind | assign | reply | block | again | call | program => exact ⟨⟨h, rfl⟩, hpositive, quiet_none⟩

end Operations

section Outward

variable {m : Machine} (h : m.stopped = true)
include h

theorem winds_place {b : Nat} {here : FrameId} {calls : Calls} (hf : m.waiting? = none) (hb : m.weight < b) :
    Winds b ({ m with here := here, calls := calls }, none) := ⟨⟨h, hf⟩, hb, quiet_none⟩

/-- Behind a statement comes the next one, which fails, or the condition of a loop. -/
theorem winds_afterStatement (hf : m.focus = .done) (w : Pending) :
    Winds (w.weight + load m.pending) (m.afterStatement w, none) := by
  have hlength := length_le_load m.pending
  have hpositive := lt_weight_add w (load m.pending)
  have hstay : ∀ here, Winds (w.weight + load m.pending) ({ m with here := here }, none) := fun here =>
    winds_place h (by rw [waiting?, hf]) (by rw [Machine.weight, hf]; exact hpositive)
  cases w with
  | block outer rest =>
    cases rest with
    | nil => exact hstay outer
    | cons s rest => exact winds_push h rfl (by grind)
  | call outer rest =>
    cases rest with
    | nil => exact ⟨⟨h, rfl⟩, hpositive, quiet_none⟩
    | cons s rest => exact winds_push h rfl (by grind)
  | again condition body => exact winds_push h rfl (by grind)
  | program index rest =>
    cases rest with
    | nil => exact ⟨⟨h, rfl⟩, hpositive, quiet_none⟩
    | cons s rest => exact ⟨⟨h, rfl⟩, by show m.pending.length + 1 + 1 < 3 + load m.pending; omega, quiet_none⟩
  | _ => exact hstay m.here

theorem winds_leaveThrough {v : Value} (hf : m.focus = .leave v) (w : Pending) :
    Winds (w.weight + load m.pending) (m.leaveThrough v w, none) := by
  have hpositive := lt_weight_add w (load m.pending)
  have hstay : ∀ here, Winds (w.weight + load m.pending) ({ m with here := here }, none) := fun here =>
    winds_place h (by rw [waiting?, hf]) (by rw [Machine.weight, hf]; exact hpositive)
  cases w with
  | block outer rest => exact hstay outer
  | call outer rest => exact ⟨⟨h, rfl⟩, hpositive, quiet_none⟩
  | program index rest => exact ⟨⟨h, rfl⟩, hpositive, quiet_none⟩
  | _ => exact hstay m.here

theorem winds_failThrough {d : Diagnostic} (hf : m.focus = .fail d) (w : Pending) :
    Winds (m.pending.length + 1) (m.failThrough w, none) := by
  have hstay : ∀ here calls, Winds (m.pending.length + 1) ({ m with here := here, calls := calls }, none) := fun _ _ =>
    winds_place h (by rw [waiting?, hf]) (by rw [Machine.weight, hf]; exact Nat.lt_succ_self _)
  cases w with
  | block outer rest => exact hstay outer m.calls
  | call outer rest => exact hstay outer m.calls.pop
  | _ => exact hstay m.here m.calls

end Outward

/-- **A step of a machine that was stopped takes something off its weight**, announces no statement and asks for no
line. -/
theorem winds_step {m : Machine} (h : m.Halting) (hb : ¬m.Back []) : Winds m.weight m.step := by
  have hs := h.stopped
  -- An outcome has pending work to go to, since the machine is not at its end.
  have hpending : m.focus.isOutcome = true → ∃ w rest, m.pending = w :: rest := fun ho =>
    List.exists_cons_of_ne_nil fun hp => hb ⟨hp, ho⟩
  cases hm : m.focus with
  | start s => simpa only [step, hm, Machine.weight, Focus.weight] using winds_startStatement hs s
  | exec s => simpa only [step, hm, Machine.weight, Focus.weight] using winds_execStatement hs s
  | eval e => simpa only [step, hm, Machine.weight, Focus.weight] using winds_evalExpression hs e
  | apply callee args span =>
    simpa only [step, hm, Machine.weight, Focus.weight] using winds_applyValue hs callee args span
  | await prompt =>
    have hw := h.unasked
    rw [waiting?, hm] at hw
    cases hw
  | give v =>
    obtain ⟨w, rest, hp⟩ := hpending (by rw [hm]; rfl)
    have hweight : m.weight = w.weight + load rest := by rw [Machine.weight, hm, hp]; rfl
    rw [step_give hm hp, hweight]
    exact winds_takeValue (m := { m with pending := rest }) hs v w
  | done =>
    obtain ⟨w, rest, hp⟩ := hpending (by rw [hm]; rfl)
    have hweight : m.weight = w.weight + load rest := by rw [Machine.weight, hm, hp]; rfl
    rw [step_done hm hp, hweight]
    exact winds_afterStatement (m := { m with pending := rest }) hs hm w
  | leave v =>
    obtain ⟨w, rest, hp⟩ := hpending (by rw [hm]; rfl)
    have hweight : m.weight = w.weight + load rest := by rw [Machine.weight, hm, hp]; rfl
    rw [step_leave hm hp, hweight]
    exact winds_leaveThrough (m := { m with pending := rest }) hs hm w
  | fail d =>
    obtain ⟨w, rest, hp⟩ := hpending (by rw [hm]; rfl)
    have hweight : m.weight = rest.length + 1 := by rw [Machine.weight, hm, hp]; rfl
    rw [step_fail hm hp, hweight]
    exact winds_failThrough (m := { m with pending := rest }) hs hm w

end Machine

end StepScript
