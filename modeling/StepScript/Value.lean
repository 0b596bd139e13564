import StepScript.Fault
import StepScript.Tree

/-!
# Values

What variables hold while a program runs. Arrays are places in the store, so that two values can be the
same array; functions carry the frame they were declared in.
-/

namespace StepScript

/-- A scope frame, by its place in the store. -/
abbrev FrameId := Nat

/-- An array, by its place in the store. -/
abbrev ArrayId := Nat

/-- The builtin operations. -/
inductive Builtin where
  | print
  | printLine
  | input
  | clearScreen
  | sleep
  | abs
  | round
  | floor
  | ceil
  | sqrt
  | sin
  | cos
  | tan
  | pow
  | random
  | least
  | greatest
  | length
  | toUpper
  | toLower
  | substring
  | replace
  | split
  | trim
  | startsWith
  | endsWith
  | contains
  | indexOf
  | copies
  | padLeft
  | padRight
  | arrayNew
  | arrayLength
  | arrayPush
  | arrayPop
  | kindOf
  | parseInt
  | parseFloat
  | asText
deriving DecidableEq

/-- How many arguments a call has to bring. -/
inductive Arity where
  | fixed (count : Nat)
  /-- Any number; the operation counts them itself. -/
  | variadic
deriving DecidableEq

/-- Whether a number of arguments is accepted. -/
def Arity.accepts : Arity → Nat → Bool
  | fixed count, n => count == n
  | variadic, _ => true

/-- The words for an arity. -/
def Arity.words : Arity → String
  | fixed count => Number.natText count
  | variadic => "any number of"

/-- A builtin under the name it was registered with. -/
structure Native where
  name : String
  arity : Arity
  builtin : Builtin
deriving DecidableEq

/-- A function a program declared, with the frame it was declared in. Every declaration that is carried
out makes a function of its own, told apart by `id`. -/
structure Closure where
  id : Nat
  name : String
  params : List String
  body : List Stmt
  home : FrameId

/-- Values. -/
inductive Value where
  | null
  | boolean (value : Bool)
  | number (value : Float)
  | text (value : String)
  | array (id : ArrayId)
  | closure (function : Closure)
  | native (function : Native)
deriving Inhabited

namespace Value

/-- The kind of a value. -/
def kind : Value → Kind
  | null => .null
  | boolean _ => .boolean
  | number _ => .number
  | text _ => .string
  | array _ => .array
  | closure _ => .function
  | native _ => .function

/-- The value of a literal. -/
def ofLiteral : Literal → Value
  | .null => null
  | .boolean value => boolean value
  | .number value => number value
  | .text value => text value

/-- Equality as programs see it: plain values by what they are, arrays and functions by identity, and
builtins by name. -/
def same : Value → Value → Bool
  | null, null => true
  | boolean a, boolean b => a == b
  | number a, number b => a == b
  | text a, text b => a == b
  | array a, array b => a == b
  | closure a, closure b => a.id == b.id
  | native a, native b => a.name == b.name
  | _, _ => false

end Value

end StepScript
