import StepScript.Machine.Step

/-!
# A run that nobody stops

The only failures that a step of a machine raises by itself are those of the program (`Inborn`): a failure that comes
from outside, because the run was stopped or a read was cancelled, is found after a step of a machine that was not told
to stop only if it was there before (`inborn_step`). The two places where a step looks at the flag, the start of a
statement and the start of a read, are the two where it could halt. So a machine that was not told to stop never halts
(`Lively.step`).
-/

namespace StepScript

/-- Whether the failure has its cause outside the program: the run was stopped, or a read was cancelled. -/
def Diagnostic.isForeign (d : Diagnostic) : Bool := d.fault == .halted || d.fault == .inputCancelled

namespace Focus

/-- Whether a focus is the failure of a run that was stopped. -/
def isHalt : Focus → Bool
  | fail d => d.isHalt
  | _ => false

/-- Whether a focus is a failure from outside. -/
def isForeign : Focus → Bool
  | fail d => d.isForeign
  | _ => false

theorem isHalt_eq_false {f : Focus} (h : f.isForeign = false) : f.isHalt = false := by
  cases f with
  | fail d => exact (Bool.or_eq_false_iff.1 h).1
  | _ => rfl

end Focus

namespace Machine

/-- The machine was not told to stop, and what it is about to do is what it was about to do before, or is no failure
from outside. -/
structure Inborn (m m' : Machine) : Prop where
  unstopped : m'.stopped = false
  own : m'.focus = m.focus ∨ m'.focus.isForeign = false

/-- The machine was not told to stop, and is not halting. -/
structure Lively (m : Machine) : Prop where
  unstopped : m.stopped = false
  unhalted : m.focus.isHalt = false

section Operations

variable {m : Machine} (h : m.stopped = false)
include h

theorem inborn_turn {f : Focus} (hf : f.isForeign = false) : Inborn m (m.turn f) := ⟨h, Or.inr hf⟩

theorem inborn_raise (span : Span) (f : RuntimeFault) : Inborn m (m.raise span f) := ⟨h, Or.inr rfl⟩

theorem inborn_settle (span : Span) (r : Except RuntimeFault Value) : Inborn m (m.settle span r) := by
  cases r with
  | ok v => exact inborn_turn h rfl
  | error f => exact inborn_raise h span f

theorem inborn_request (keep : Bool) (span : Span) (prompt : String) : Inborn m (m.request keep span prompt) := by
  unfold request
  rw [if_neg (by simp [h])]
  exact ⟨h, Or.inr rfl⟩

theorem inborn_startStatement (s : Stmt) : Inborn m (m.startStatement s).1 := by
  unfold startStatement
  rw [if_neg (by simp [h])]
  split <;> exact inborn_turn h rfl

theorem inborn_execStatement (s : Stmt) : Inborn m (m.execStatement s) := by
  cases s with
  | input keyword prompt span =>
    cases prompt with
    | none => exact inborn_request h false span _
    | some e => exact ⟨h, Or.inr rfl⟩
  | leave value span => cases value <;> exact ⟨h, Or.inr rfl⟩
  | expr | print | assign | block | branch | loop | function => exact ⟨h, Or.inr rfl⟩

theorem inborn_evalExpression (e : Expr) : Inborn m (m.evalExpression e) := by
  cases e with
  | name x span =>
    simp only [evalExpression]
    split
    · exact inborn_turn h rfl
    · exact inborn_raise h span _
  | array items span => cases items <;> exact ⟨h, Or.inr rfl⟩
  | literal | assign | binary | logical | unary | call | group | property | element | setProperty | setElement =>
    exact ⟨h, Or.inr rfl⟩

theorem inborn_takeAnswer (span : Span) (a : Answer) : Inborn m (m.takeAnswer span a).1 := by
  cases a with
  | ask prompt => exact inborn_request h true span prompt
  | fault f => exact inborn_raise h span f
  | value | write | writeLine | clear => exact inborn_turn h rfl

theorem inborn_runBuiltin (b : Builtin) (args : List Value) (span : Span) :
    Inborn m (m.runBuiltin b args span).1 := by
  have hanswer := inborn_takeAnswer (m := { m with store := (b.run args m.store).2 }) h span (b.run args m.store).1
  exact ⟨hanswer.unstopped, hanswer.own⟩

theorem inborn_applyValue (callee : Value) (args : List Value) (span : Span) :
    Inborn m (m.applyValue callee args span).1 := by
  unfold applyValue
  split
  · split
    · split
      · exact inborn_runBuiltin h _ args span
      · exact inborn_raise h span _
    · exact inborn_runBuiltin h _ args span
  · split
    · exact inborn_raise h span _
    · split
      · exact inborn_raise h span _
      · exact ⟨h, Or.inr rfl⟩
  · exact inborn_raise h span _

theorem inborn_takeValue (v : Value) (w : Pending) : Inborn m (m.takeValue v w).1 := by
  cases w with
  | prompt span => exact inborn_request h false span _
  | combine | unary | property | index => exact inborn_settle h _ _
  | discard | test | logical =>
    simp only [takeValue]
    split <;> exact ⟨h, Or.inr rfl⟩
  | choose yes no =>
    simp only [takeValue]
    split
    · exact inborn_turn h rfl
    · split <;> exact inborn_turn h rfl
  | write newline => cases newline <;> exact inborn_turn h rfl
  | callee args span => cases args <;> exact ⟨h, Or.inr rfl⟩
  | argument callee before rest span => cases rest <;> exact ⟨h, Or.inr rfl⟩
  | item before rest => cases rest <;> exact ⟨h, Or.inr rfl⟩
  | setProperty x span => cases v <;> exact inborn_raise h span _
  | setObject index value span => cases v <;> exact ⟨h, Or.inr rfl⟩
  | setValue object index span =>
    simp only [takeValue]
    split
    · exact ⟨h, Or.inr rfl⟩
    · exact inborn_raise h span _
  | reply | bind | block | again | returning | call | program | assign | right | object | setIndex => exact ⟨h, Or.inr rfl⟩

theorem inborn_self : Inborn m m := ⟨h, Or.inl rfl⟩

theorem inborn_afterStatement (w : Pending) : Inborn m (m.afterStatement w) := by
  cases w with
  | block outer rest =>
    cases rest with
    | nil => exact ⟨h, Or.inl rfl⟩
    | cons s rest => exact ⟨h, Or.inr rfl⟩
  | call outer rest => cases rest <;> exact ⟨h, Or.inr rfl⟩
  | program index rest => cases rest <;> exact ⟨h, Or.inr rfl⟩
  | again condition body => exact ⟨h, Or.inr rfl⟩
  | _ => exact inborn_self h

theorem inborn_leaveThrough (v : Value) (w : Pending) : Inborn m (m.leaveThrough v w) := by
  cases w with
  | block outer rest => exact ⟨h, Or.inl rfl⟩
  | call outer rest => exact ⟨h, Or.inr rfl⟩
  | program index rest => exact ⟨h, Or.inr rfl⟩
  | _ => exact inborn_self h

/-- A failure is handed on as it is. -/
theorem inborn_failThrough (w : Pending) : Inborn m (m.failThrough w) := by
  cases w <;> exact ⟨h, Or.inl rfl⟩

/-- **A step raises no failure from outside**, unless the run was told to stop. -/
theorem inborn_step : Inborn m m.step.1 := by
  -- outward steps work on the machine without its innermost piece of work
  have hp (rest : List Pending) {m' : Machine} (hm : Inborn { m with pending := rest } m') : Inborn m m' :=
    ⟨hm.unstopped, hm.own⟩
  unfold Machine.step
  split
  · exact inborn_startStatement h _
  · exact inborn_execStatement h _
  · exact inborn_evalExpression h _
  · exact inborn_applyValue h _ _ _
  · exact inborn_self h
  · split
    · exact inborn_self h
    · rename_i rest _
      exact hp rest (inborn_takeValue (m := { m with pending := rest }) h _ _)
  · split
    · exact inborn_self h
    · rename_i rest _
      exact hp rest (inborn_afterStatement (m := { m with pending := rest }) h _)
  · split
    · exact inborn_self h
    · rename_i rest _
      exact hp rest (inborn_leaveThrough (m := { m with pending := rest }) h _ _)
  · split
    · exact inborn_self h
    · rename_i rest _
      exact hp rest (inborn_failThrough (m := { m with pending := rest }) h _)

end Operations

section Run

variable {m : Machine}

/-- **One step of a run that was not stopped leaves it unstopped and unhalted.** -/
theorem Lively.step (h : Lively m) : Lively m.step.1 := by
  have hs := inborn_step h.unstopped
  refine ⟨hs.unstopped, ?_⟩
  rcases hs.own with hf | hf
  · rw [hf]
    exact h.unhalted
  · exact Focus.isHalt_eq_false hf

/-- A line that is read leaves a run unstopped. -/
theorem Lively.answer (h : Lively m) (line : String) : Lively (m.answer (.line line)) := by
  unfold Machine.answer
  split
  · dsimp only
    split <;> exact ⟨h.unstopped, rfl⟩
  · exact h

/-- A failure that ends a run which was not stopped is one of the program. -/
theorem Lively.finished (h : Lively m) {d : Diagnostic} (hf : m.finished? = some (.error d)) : d.isHalt = false := by
  have hm := h.unhalted
  unfold finished? at hf
  split at hf
  · cases hf
  · cases hf
  · cases hf
  · rename_i hd
    cases hf
    rw [hd] at hm
    exact hm
  · cases hf

end Run

end Machine

end StepScript
