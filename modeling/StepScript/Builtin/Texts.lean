import StepScript.Builtin.Arguments
import StepScript.Text.Blank
import StepScript.Text.Case
import StepScript.Text.Search
import StepScript.Text.Slice

/-!
# Builtins on text

Lengths and places are counted in characters.
-/

namespace StepScript.Builtin

/-- The longest text that is built by repeating and padding. -/
def maxTextLength : Nat := 10000000

/-- The length of a text. -/
def lengthOf : Value → Except RuntimeFault Value
  | .text s => .ok (.number (Float.ofNat s.length))
  | v => .error (.lengthOf v.kind)

/-- A bound held within a text of so many characters: no number and nothing positive is the start. -/
def clampTo (length : Nat) (x : Float) : Nat := min (Number.toUnsigned x) length

/-- The part of a text between two bounds; a missing or null upper bound is its end. -/
def substringOf (s : Store) (args : List Value) : Except RuntimeFault Value := do
  checkCount .substring args (.between 2 3)
  let cs := (textArgument s args 0).toList
  let start := clampTo cs.length (← numberArgument .substring args 1)
  let stop ← match args[2]? with
    | none => pure cs.length
    | some .null => pure cs.length
    | some _ => clampTo cs.length <$> numberArgument .substring args 2
  pure (.text (String.ofList (Text.between cs start stop)))

/-- The parts of a text between delimiters; with an empty delimiter, its characters. -/
def splitParts (text delimiter : String) : List String :=
  if delimiter.isEmpty then text.toList.map Char.toString
  else (Text.pieces delimiter.toList text.toList).map String.ofList

/-- The length of so many copies of a text, held within the unsigned 64-bit numbers. -/
def copiedLength (length count : Nat) : Nat := min (length * count) Number.maxUnsigned

/-- The text so many times in a row. -/
def repeated (s : Store) (args : List Value) : Except RuntimeFault Value := do
  let count ← integerArgument .copies args 1
  if count < 0 then .error .negativeRepeat
  else
    let text := textArgument s args 0
    let total := copiedLength text.length count.toNat
    if maxTextLength < total then .error .stringLength
    else if total = 0 then pure (.text "")
    else pure (.text (Text.copies text count.toNat))

/-- A text and what it takes to fill it up to a length. -/
def padding (b : Builtin) (s : Store) (args : List Value) : Except RuntimeFault (String × String) := do
  checkCount b args (.between 2 3)
  let text := textArgument s args 0
  let target ← integerArgument b args 1
  if (maxTextLength : Int) < target then .error .stringLength
  else
    let fill := if args.length = 3 then textArgument s args 2 else " "
    pure (text, Text.cycled fill (target.toNat - text.length))

/-- The text filled up in front. -/
def paddedLeft (s : Store) (args : List Value) : Except RuntimeFault Value := do
  let (text, pad) ← padding .padLeft s args
  pure (.text (pad ++ text))

/-- The text filled up at its end. -/
def paddedRight (s : Store) (args : List Value) : Except RuntimeFault Value := do
  let (text, pad) ← padding .padRight s args
  pure (.text (text ++ pad))

/-- Whether a text occurs in another. -/
def occursIn (text pattern : String) : Bool := (Text.indexOf? pattern.toList text.toList).isSome

/-- The place of the first occurrence, or minus one. -/
def placeIn (text pattern : String) : Float :=
  match Text.indexOf? pattern.toList text.toList with
  | some i => Float.ofNat i
  | none => -1.0

/-- Whether a text ends with another. -/
def endsIn (text ending : String) : Bool := ending.toList.reverse.isPrefixOf text.toList.reverse

end StepScript.Builtin
