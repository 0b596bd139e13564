import StepScript.Console
import StepScript.Machine.Run

/-!
# Runs on a console with a hook

A hook is called before every statement other than a block, and whenever a loop starts its body. It sits in a
slot, which may be empty. A probe keeps a record of the calls and can stop or refuse the run at a given
statement.

- `Outside` is what a run has outside of its machine: the slot and the console;
- `Outside.notify` takes the hook out of the slot, asks it, and puts it back;
- `Outside.observer` watches a run so, `Hook.observer` watches it with a hook that is always at hand.
-/

namespace StepScript

/-- A hook with a state of its own. -/
structure Hook (η : Type) where
  before : η → Machine → (line : Nat) → η × Verdict
  lap : η → η

/-- The hook that does nothing. -/
def Hook.idle : Hook Unit := ⟨fun _ _ _ => ((), .proceed), id⟩

/-- A hook with the state that it is in. -/
structure Mounted (η : Type) where
  hook : Hook η
  state : η

/-- What a run has outside of its machine: the slot for a hook, and a console. -/
structure Outside (η : Type) where
  slot : Option (Mounted η)
  console : Console

namespace Outside

variable {η : Type}

/-- Takes the hook out of the slot. -/
def take (o : Outside η) : Option (Mounted η) × Outside η := (o.slot, { o with slot := none })

/-- Puts a hook into the slot. -/
def put (o : Outside η) (mounted : Mounted η) : Outside η := { o with slot := some mounted }

/-- Announces a statement to the hook, which is not in the slot while it decides, and is back there before its
decision is heeded. -/
def notify (o : Outside η) (m : Machine) (line : Nat) : Outside η × Verdict :=
  match o.take with
  | (none, o) => (o, .proceed)
  | (some mounted, o) =>
    let (state, verdict) := mounted.hook.before mounted.state m line
    (o.put { mounted with state := state }, verdict)

/-- Tells the hook in the slot that a loop starts its body. -/
def lap (o : Outside η) : Outside η :=
  { o with slot := o.slot.map fun mounted => { mounted with state := mounted.hook.lap mounted.state } }

/-- A run on a console, watched by what is in the slot. -/
def observer : Observer (Outside η) where
  see := fun o m event =>
    match event with
    | .visit line => o.notify m line
    | .lap => (o.lap, .proceed)
    | event => ({ o with console := o.console.see event }, .proceed)
  ask := fun o prompt =>
    let (console, reply) := o.console.request prompt
    ({ o with console := console }, reply)

end Outside

/-- A run on a console, watched by a hook. -/
def Hook.observer {η : Type} (h : Hook η) : Observer (η × Console) where
  see := fun (state, console) m event =>
    match event with
    | .visit line =>
      let (state, verdict) := h.before state m line
      ((state, console), verdict)
    | .lap => ((h.lap state, console), .proceed)
    | event => ((state, console.see event), .proceed)
  ask := fun (state, console) prompt =>
    let (console, reply) := console.request prompt
    ((state, console), reply)

namespace Machine

/-- The names of the current frame with their values as text. -/
def locals (m : Machine) : List (String × String) :=
  m.bindings.map fun e => (e.1, e.2.inspect m.store)

end Machine

/-- What a probe writes down. -/
inductive Mark where
  /-- A statement: its line, the calls in progress (the outermost first), the number of the top-level
  statement, and the variables of the current frame. -/
  | visit (line cursor : Nat) (calls : List Call) (locals : List (String × String))
  | lap

/-- A probe: whether it writes a record, and at which statement, counted from one, it stops or refuses the
run. -/
structure Probe where
  recording : Bool
  stopAt : Option Nat
  refuseAt : Option Nat
  refusal : String

/-- How many statements a probe has seen, and its record. -/
structure ProbeLog where
  seen : Nat
  marks : Array Mark

/-- Nothing seen. -/
def ProbeLog.empty : ProbeLog := ⟨0, #[]⟩

/-- The hook of a probe. -/
def Probe.hook (p : Probe) : Hook ProbeLog where
  before := fun log m line =>
    let seen := log.seen + 1
    let marks :=
      if p.recording then log.marks.push (.visit line m.cursor m.calls.toList.reverse m.locals) else log.marks
    let course :=
      if p.refuseAt = some seen then .refuse ⟨.runtime (.refused p.refusal), none, none⟩ else .proceed
    (⟨seen, marks⟩, ⟨p.stopAt = some seen, course⟩)
  lap := fun log => if p.recording then { log with marks := log.marks.push .lap } else log

end StepScript
