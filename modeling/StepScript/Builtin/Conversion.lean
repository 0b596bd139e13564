import StepScript.Builtin.Arguments
import StepScript.Number.Leading

/-!
# Builtins that read numbers from text
-/

namespace StepScript.Builtin

/-- The whole number that a text starts with, in a radix from two to thirty-six; ten if it is missing or
null. -/
def integerOf (s : Store) (args : List Value) : Except RuntimeFault Value := do
  checkCount .parseInt args (.between 1 2)
  let radix ← match args[1]? with
    | none => pure 10
    | some .null => pure 10
    | some _ => integerArgument .parseInt args 1
  if 2 ≤ radix ∧ radix ≤ 36 then
    pure (.number (Number.leadingInteger radix.toNat (textArgument s args 0).toList))
  else pure (.number Number.nan)

/-- The number that a text starts with. -/
def floatOf (s : Store) (args : List Value) : Value :=
  .number (Number.leadingFloat (textArgument s args 0).toList)

end StepScript.Builtin
