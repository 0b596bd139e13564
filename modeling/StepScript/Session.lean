import StepScript.Grammar.Program
import StepScript.Machine.Hook

/-!
# Sessions

A session is a machine with its console. Programs run in it one after the other and find the variables of
those before them. A hook may be installed, which then watches every run until another takes its place.

- `Hooked` is a session with the slot for its hook; `Hooked.execute` runs a text, `Hooked.call` calls a global
  function;
- `Session.executeWith`, `Session.execute` and `Session.call` are single runs, with a hook for the one run or
  none;
- what does not end within the given fuel gives nothing.
-/

namespace StepScript

/-- How a program is to be run. -/
structure Config where
  maxCallDepth : Nat
  assignScope : AssignScope
  /-- The seed of random numbers; without one the system draws a generator. -/
  seed : Option UInt64

namespace Config

/-- A thousand nested calls, variables made in the current frame, no particular seed. -/
def default : Config := ⟨defaultMaxCallDepth, .current, none⟩

def settings (c : Config) (registry : Registry) : Settings :=
  ⟨registry, c.maxCallDepth, c.assignScope⟩

/-- The generator that a run starts with, where the system would draw `entropy`. -/
def random (c : Config) (entropy : Random) : Random := (c.seed.map Random.ofSeed).getD entropy

/-- A machine ready to run. -/
def machine (c : Config) (registry : Registry) (entropy : Random) : Machine :=
  .initial (c.settings registry) (c.random entropy)

end Config

/-- A machine with its console. -/
structure Session where
  machine : Machine
  console : Console

namespace Session

/-- A session in which nothing was run. For a host that does not say what the system draws, it draws the generator of
seed 0. -/
def new (registry : Registry) (config : Config) (console : Console) (entropy : Random := .ofSeed 0) : Session :=
  ⟨config.machine registry entropy, console⟩

/-- The value of a global name. -/
def global (s : Session) (x : String) : Except Diagnostic Value :=
  match s.machine.store.scopes.get? Store.globals x with
  | some v => .ok v
  | none => .error ⟨.runtime (.undefinedVariable x), none, none⟩

/-- Binds a global name. -/
def define (s : Session) (x : String) (v : Value) : Session :=
  { s with machine := s.machine.mapStore (Store.mapScopes (Scopes.define · Store.globals x v)) }

/-- Sets or clears the stop flag. -/
def setStopped (s : Session) (stopped : Bool) : Session :=
  { s with machine := { s.machine with stopped := stopped } }

/-- A new array in the session's store. -/
def newArray (s : Session) (items : List Value) : Value × Session :=
  let (v, m) := s.machine.withStore (Store.newArray items.toArray)
  (v, { s with machine := m })

end Session

/-- A session with the slot for its hook. -/
structure Hooked (η : Type) extends Session where
  slot : Option (Mounted η)

namespace Hooked

variable {η : Type}

/-- Installs a hook in the place of what is in the slot. -/
def install (s : Hooked η) (mounted : Mounted η) : Hooked η := { s with slot := some mounted }

/-- Takes the hook out of the slot for good. -/
def remove (s : Hooked η) : Option (Mounted η) × Hooked η := (s.slot, { s with slot := none })

/-- Lets the machine work to its end, watched by the hook in the slot. -/
def drive (s : Hooked η) (fuel : Nat) (m : Machine) : Option (Except Diagnostic Value × Hooked η) :=
  match m.run Outside.observer fuel ⟨s.slot, s.console⟩ with
  | none => none
  | some (outside, m) =>
    match m.finished? with
    | none => none
    | some result => some (result, ⟨⟨m, outside.console⟩, outside.slot⟩)

/-- Compiles a text and runs it. A text that does not compile leaves the session alone. -/
def execute (s : Hooked η) (fuel : Nat) (source : String) : Option (Except Diagnostic Value × Hooked η) :=
  match compile source with
  | .error d => some (.error d, s)
  | .ok program => s.drive fuel (s.machine.begin program)

/-- Calls a global function from a place. -/
def call (s : Hooked η) (fuel : Nat) (x : String) (args : List Value) (span : Span) :
    Option (Except Diagnostic Value × Hooked η) :=
  match s.global x with
  | .error d => some (.error d, s)
  | .ok callee => s.drive fuel (s.machine.invoke callee args span)

/-- What came of a run for which a hook was installed: its result, the state that the hook is left in, and the
session without the hook. -/
def release (r : Except Diagnostic Value × Hooked η) : Option (Except Diagnostic Value × η × Session) :=
  r.2.slot.map fun mounted => (r.1, mounted.state, r.2.toSession)

end Hooked

namespace Session

variable {η : Type}

/-- The session with nothing in its slot. -/
def bare (s : Session) : Hooked Unit := ⟨s, none⟩

/-- The session with a hook in its slot. -/
def under (s : Session) (h : Hook η) (state : η) : Hooked η := ⟨s, some ⟨h, state⟩⟩

/-- Lets the machine work to its end under a hook. -/
def drive (s : Session) (h : Hook η) (state : η) (fuel : Nat) (m : Machine) :
    Option (Except Diagnostic Value × η × Session) :=
  ((s.under h state).drive fuel m).bind Hooked.release

/-- Compiles a text and runs it under a hook. -/
def executeWith (s : Session) (h : Hook η) (state : η) (fuel : Nat) (source : String) :
    Option (Except Diagnostic Value × η × Session) :=
  ((s.under h state).execute fuel source).bind Hooked.release

/-- Compiles a text and runs it. -/
def execute (s : Session) (fuel : Nat) (source : String) : Option (Except Diagnostic Value × Session) :=
  (s.bare.execute fuel source).map fun (result, s) => (result, s.toSession)

/-- Calls a global function from a place. -/
def call (s : Session) (fuel : Nat) (x : String) (args : List Value) (span : Span) :
    Option (Except Diagnostic Value × Session) :=
  (s.bare.call fuel x args span).map fun (result, s) => (result, s.toSession)

end Session

end StepScript
