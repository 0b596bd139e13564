import StepScript.Machine.Basic

/-!
# Operators and elements

What operators make of values, and how elements of arrays and texts are found, read and written. None of it
changes where the machine stands.
-/

namespace StepScript

/-- Elements up to this place can be written. -/
def maxWriteIndex : Nat := 10000000

/-- A comparison or an operation on two numbers. -/
def numeric (f : Float → Float → Value) : Value → Value → Except RuntimeFault Value
  | .number x, .number y => .ok (f x y)
  | left, right => .error (.arithmetic left.kind right.kind)

/-- The sum of two numbers, or two values joined as text if one of them is text. -/
def addValues (s : Store) : Value → Value → Except RuntimeFault Value
  | .number x, .number y => .ok (.number (x + y))
  | .text x, right => .ok (.text (x ++ right.display s))
  | left, .text y => .ok (.text (left.display s ++ y))
  | left, right => .error (.addition left.kind right.kind)

/-- The quotient of two numbers; a divisor of zero is refused. -/
def divideValues : Value → Value → Except RuntimeFault Value
  | .number x, .number y => if y == 0.0 then .error .divisionByZero else .ok (.number (x / y))
  | left, right => .error (.arithmetic left.kind right.kind)

/-- What an operator makes of two values. -/
def BinaryOp.apply (s : Store) (op : BinaryOp) (left right : Value) : Except RuntimeFault Value :=
  match op with
  | .add => addValues s left right
  | .subtract => numeric (fun x y => .number (x - y)) left right
  | .multiply => numeric (fun x y => .number (x * y)) left right
  | .divide => divideValues left right
  | .equal => .ok (.boolean (left.same right))
  | .notEqual => .ok (.boolean (!left.same right))
  | .less => numeric (fun x y => .boolean (decide (x < y))) left right
  | .lessEqual => numeric (fun x y => .boolean (decide (x ≤ y))) left right
  | .greater => numeric (fun x y => .boolean (decide (x > y))) left right
  | .greaterEqual => numeric (fun x y => .boolean (decide (x ≥ y))) left right

/-- What an operator makes of one value. -/
def UnaryOp.apply (s : Store) (op : UnaryOp) (operand : Value) : Except RuntimeFault Value :=
  match op, operand with
  | .negate, .number x => .ok (.number (-x))
  | .negate, _ => .error .negation
  | .not, v => .ok (.boolean (!v.truthy s))

/-- Whether the left operand decides. -/
def LogicalOp.settles (s : Store) (op : LogicalOp) (left : Value) : Bool :=
  match op with
  | .or => left.truthy s
  | .and => !left.truthy s

/-- A value as a place in an array: a whole number that is not negative. -/
def placeOf : Value → Except RuntimeFault Nat
  | .number x =>
    if Number.isNegative x then .error (.outOfBounds (Number.text x))
    else if Number.isIntegral x then .ok (Number.toUnsigned x)
    else .error (.invalidIndex (Number.text x))
  | v => .error (.indexKind v.kind)

/-- A property of a value; there is only the length. -/
def readProperty (s : Store) (object : Value) (name : String) : Except RuntimeFault Value :=
  match object with
  | .null => .error (.propertyOfNull name)
  | .array id =>
    if name = "length" then .ok (.number (Float.ofNat (s.items id).size))
    else .error (.undefinedProperty name)
  | .text t =>
    if name = "length" then .ok (.number (Float.ofNat t.length)) else .error (.undefinedProperty name)
  | _ => .error (.undefinedProperty name)

/-- An element of an array or a character of a text. -/
def readElement (s : Store) (object index : Value) : Except RuntimeFault Value :=
  match object with
  | .array id => do
    let i ← placeOf index
    match (s.items id)[i]? with
    | some v => pure v
    | none => .error (.outOfBounds (index.display s))
  | .text t => do
    let i ← placeOf index
    match t.toList[i]? with
    | some c => pure (.text c.toString)
    | none => .error (.outOfBounds (index.display s))
  | .null => .error .indexOfNull
  | v => .error (.notIndexable v.kind)

/-- The array and the place that an element is written at. -/
def writePlace (object index : Value) : Except RuntimeFault (ArrayId × Nat) :=
  match object with
  | .array id => do
    let i ← placeOf index
    if maxWriteIndex < i then .error (.indexTooLarge i) else pure (id, i)
  | v => .error (.assignIndex v.kind)

end StepScript
