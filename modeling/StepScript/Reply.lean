/-!
# Answers to a read
-/

namespace StepScript

/-- A line that was read, or nothing if the read was cancelled. -/
inductive Reply where
  | line (text : String)
  | cancelled
deriving DecidableEq

end StepScript
