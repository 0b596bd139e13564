import StepScript.Value.Display

/-!
# Arguments and answers of builtins

What a builtin may ask of its arguments, and what it may come back with: a value, something to be done
outside the program, or a fault.
-/

namespace StepScript

/-- The name by which a builtin speaks of itself in its faults, whatever it was registered as. -/
def Builtin.name : Builtin → String
  | print => "print"
  | printLine => "etb3"
  | input => "input"
  | clearScreen => "clearScreen"
  | sleep => "sleep"
  | abs => "abs"
  | round => "round"
  | floor => "floor"
  | ceil => "ceil"
  | sqrt => "sqrt"
  | sin => "sin"
  | cos => "cos"
  | tan => "tan"
  | pow => "pow"
  | random => "random"
  | least => "min"
  | greatest => "max"
  | length => "length"
  | toUpper => "toUpper"
  | toLower => "toLower"
  | substring => "substring"
  | replace => "replace"
  | split => "split"
  | trim => "trim"
  | startsWith => "startsWith"
  | endsWith => "endsWith"
  | contains => "contains"
  | indexOf => "indexOf"
  | copies => "repeat"
  | padLeft => "padLeft"
  | padRight => "padRight"
  | arrayNew => "arrayNew"
  | arrayLength => "arrayLength"
  | arrayPush => "arrayPush"
  | arrayPop => "arrayPop"
  | kindOf => "typeof"
  | parseInt => "parseInt"
  | parseFloat => "parseFloat"
  | asText => "toString"

/-- What a builtin comes back with. -/
inductive Answer where
  | value (v : Value)
  | write (text : String)
  | writeLine (text : String)
  | clear
  /-- A line is to be read; it becomes the value. -/
  | ask (prompt : String)
  | fault (fault : RuntimeFault)

/-- The answer of a computation that may fail. -/
def Answer.ofExcept : Except RuntimeFault Value → Answer
  | .ok v => .value v
  | .error f => .fault f

namespace Builtin

/-- An argument; a missing one reads as null. -/
def argument (args : List Value) (i : Nat) : Value := args.getD i .null

/-- The text of an argument; a missing one reads as the empty text. -/
def textArgument (s : Store) (args : List Value) (i : Nat) : String :=
  match args[i]? with
  | some v => v.display s
  | none => ""

/-- A numeric argument. -/
def numberArgument (b : Builtin) (args : List Value) (i : Nat) : Except RuntimeFault Float :=
  match args[i]? with
  | some (.number n) => .ok n
  | some v => .error (.argumentKind b.name v.kind)
  | none => .error (.argumentMissing b.name)

/-- A numeric argument as a whole number, rounded toward zero. -/
def integerArgument (b : Builtin) (args : List Value) (i : Nat) : Except RuntimeFault Int :=
  Number.toSigned <$> numberArgument b args i

/-- The number of arguments that came. -/
def checkCount (b : Builtin) (args : List Value) (count : Count) : Except RuntimeFault Unit :=
  if count.admits args.length then .ok () else .error (.argumentCount b.name count)

end Builtin

end StepScript
