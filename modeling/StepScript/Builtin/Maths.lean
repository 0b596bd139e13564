import StepScript.Builtin.Arguments
import StepScript.Number.Read

/-!
# Numeric builtins
-/

namespace StepScript.Builtin

/-- The nearest whole number, halves going up. -/
def roundHalfUp (x : Float) : Float :=
  let below := x.floor
  if x - below ≥ 0.5 then below + 1.0 else below

/-- A function of one number. -/
def unary (b : Builtin) (f : Float → Float) (args : List Value) : Except RuntimeFault Value := do
  let x ← numberArgument b args 0
  pure (.number (f x))

/-- The square root of a number that is not negative. -/
def squareRoot (args : List Value) : Except RuntimeFault Value := do
  let x ← numberArgument .sqrt args 0
  if x < 0.0 then .error .negativeRoot else pure (.number x.sqrt)

/-- A number to the power of another. -/
def power (args : List Value) : Except RuntimeFault Value := do
  let base ← numberArgument .pow args 0
  let exponent ← numberArgument .pow args 1
  pure (.number (base.pow exponent))

/-- The bounds of a random whole number: none, an upper one, or both. -/
def randomBounds (args : List Value) : Except RuntimeFault (Option (Float × Float)) := do
  checkCount .random args (.between 0 2)
  match args.length with
  | 0 => pure none
  | 1 =>
    let high ← numberArgument .random args 0
    pure (some (0.0, high))
  | _ =>
    let low ← numberArgument .random args 0
    let high ← numberArgument .random args 1
    pure (some (low, high))

/-- A random number: from zero to one, or a whole number within bounds. -/
def randomNumber (args : List Value) (s : Store) : Answer × Store :=
  match randomBounds args with
  | .error f => (.fault f, s)
  | .ok bounds =>
    let (unit, s) := s.draw
    match bounds with
    | none => (.value (.number unit), s)
    | some (low, high) => (.value (.number ((unit * (high - low)).floor + low)), s)

/-- The smaller of two numbers; of equal ones, such as the two zeros, the second. -/
def smaller (x y : Float) : Float := if x < y then x else y

/-- The greater of two numbers; of equal ones, such as the two zeros, the second. -/
def greater (x y : Float) : Float := if y < x then x else y

/-- The rest of the arguments folded by a choice between two numbers; with no number in between, the
result is none. -/
def extremumFrom (b : Builtin) (pick : Float → Float → Float) (best : Float) :
    List Value → Except RuntimeFault Float
  | [] => .ok best
  | .number x :: rest =>
    extremumFrom b pick (if best.isNaN || x.isNaN then Number.nan else pick best x) rest
  | v :: _ => .error (.argumentKind b.name v.kind)

/-- The extreme of at least one number. -/
def extremum (b : Builtin) (pick : Float → Float → Float) (args : List Value) :
    Except RuntimeFault Value := do
  checkCount b args (.atLeast 1)
  let first ← numberArgument b args 0
  let best ← extremumFrom b pick first (args.drop 1)
  pure (.number best)

end StepScript.Builtin
