import StepScript.Machine.Hook

/-!
# What a pause shows
-/

namespace StepScript.Debugger

/-- The program as seen at a pause. -/
structure Snapshot where
  line : Nat
  /-- The number of the top-level statement being carried out. -/
  cursor : Nat
  callDepth : Nat
  /-- The variables of the current frame with their values as text. -/
  locals : List (String × String)
  /-- The calls in progress, the innermost first, and the main program last. -/
  callStack : List String
deriving DecidableEq

namespace Snapshot

/-- How a call in progress is named. -/
def callText (c : Call) : String := c.name ++ " (called at line " ++ Number.natText c.line ++ ")"

/-- The machine as it stands before a statement on a line. -/
def capture (m : Machine) (line : Nat) : Snapshot :=
  { line := line
    cursor := m.cursor
    callDepth := m.depth
    locals := m.locals
    callStack := m.calls.toList.map callText ++ ["<main>"] }

end Snapshot

end StepScript.Debugger
