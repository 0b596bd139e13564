import StepScript.Machine.Hook

/-!
# Where a debug session pauses

A stepper decides before every statement whether to pause there. It pauses on arrival at a line with a
breakpoint, and otherwise as the latest step asks: at once, at the next statement that is not inside a
deeper call, at the first one outside the present call, or not at all.

A statement is an arrival unless the statement before it was on the same line at the same depth of calls;
the start of a loop's body makes the next statement an arrival again.
-/

namespace StepScript.Debugger

/-- How far a step goes. -/
inductive StepMode where
  /-- To the very next statement. -/
  | into
  /-- To the next statement that is not inside a deeper call. -/
  | over
  /-- To the first statement after the present function has returned. -/
  | out
  /-- To the next breakpoint only. -/
  | onward
deriving DecidableEq

/-- The state of a stepper. -/
structure Stepper where
  mode : StepMode
  /-- The depth of calls when the step was ordered. -/
  origin : Nat
  breakpoints : List Nat
  /-- Line and depth of the statement before. -/
  lastSeen : Option (Nat × Nat)

namespace Stepper

/-- A new session pauses at its first statement. -/
def initial : Stepper := ⟨.into, 0, [], none⟩

/-- Whether a statement is an arrival at its line. -/
def arrives (s : Stepper) (line depth : Nat) : Bool := s.lastSeen != some (line, depth)

/-- Whether the step asks for a pause at a depth of calls. -/
def wants (s : Stepper) (depth : Nat) : Bool :=
  match s.mode with
  | .into => true
  | .over => depth ≤ s.origin
  | .out => depth < s.origin
  | .onward => false

/-- Whether to pause at a statement. -/
def pausesAt (s : Stepper) (line depth : Nat) : Bool :=
  (s.arrives line depth && s.breakpoints.contains line) || s.wants depth

/-- A new step, ordered at a depth of calls. -/
def order (s : Stepper) (mode : StepMode) (depth : Nat) (breakpoints : List Nat) : Stepper :=
  { s with mode := mode, origin := depth, breakpoints := breakpoints }

/-- The hook of a stepper: it holds the run where it pauses. -/
def hook : Hook Stepper where
  before := fun s m line =>
    let depth := m.depth
    ({ s with lastSeen := some (line, depth) }, if s.pausesAt line depth then .hold else .proceed)
  lap := fun s => { s with lastSeen := none }

end Stepper

end StepScript.Debugger
