import StepScript.Builtin.Arguments

/-!
# Builtins on arrays
-/

namespace StepScript.Builtin

/-- The longest array that can be asked for. -/
def maxNewArray : Int := 10000000

/-- A new array of nulls, of no elements unless a length is given. -/
def makeArray (args : List Value) (s : Store) : Answer × Store :=
  let length := do
    checkCount .arrayNew args (.between 0 1)
    if args.isEmpty then pure 0 else integerArgument .arrayNew args 0
  match length with
  | .error f => (.fault f, s)
  | .ok n =>
    if 0 ≤ n ∧ n ≤ maxNewArray then
      let (v, s) := s.newArray (Array.replicate n.toNat .null)
      (.value v, s)
    else (.fault (.arrayLength n), s)

/-- The number of elements of an array or of characters of a text; zero for everything else. -/
def sizeOf (s : Store) : Value → Nat
  | .array id => (s.items id).size
  | .text t => t.length
  | _ => 0

/-- Puts a value at the end of an array and hands the array back; null is left alone. -/
def push (args : List Value) (s : Store) : Answer × Store :=
  match argument args 0 with
  | .array id => (.value (.array id), s.mapItems id (·.push (argument args 1)))
  | .null => (.value .null, s)
  | v => (.fault (.notAnArray (name .arrayPush) v.kind), s)

/-- Takes the last element off an array; an empty array and null give null. -/
def pop (args : List Value) (s : Store) : Answer × Store :=
  match argument args 0 with
  | .array id =>
    let v := (s.items id).back?.getD .null
    (.value v, s.mapItems id Array.pop)
  | .null => (.value .null, s)
  | v => (.fault (.notAnArray (name .arrayPop) v.kind), s)

end StepScript.Builtin
