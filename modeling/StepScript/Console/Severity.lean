/-!
# How important a line is
-/

namespace StepScript

/-- The weight of a line that is written. What a program prints is plain output. -/
inductive Severity where
  | output
  | info
  | success
  | warning
  | error
deriving DecidableEq

/-- The name of a severity. -/
def Severity.name : Severity → String
  | output => "Output"
  | info => "Info"
  | success => "Success"
  | warning => "Warning"
  | error => "Error"

end StepScript
