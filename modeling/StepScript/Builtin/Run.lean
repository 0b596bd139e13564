import StepScript.Builtin.Arrays
import StepScript.Builtin.Conversion
import StepScript.Builtin.Maths
import StepScript.Builtin.Texts

/-!
# What every builtin does
-/

namespace StepScript

/-- What is shown when a line is read and no prompt is given. -/
def defaultPrompt : String := "Input: "

namespace Builtin

/-- The prompt of a read: a missing, null or empty one is replaced. -/
def promptOf (s : Store) (args : List Value) : Except RuntimeFault String := do
  checkCount .input args (.between 0 1)
  match args with
  | [] => pure defaultPrompt
  | .null :: _ => pure defaultPrompt
  | .text "" :: _ => pure defaultPrompt
  | v :: _ => pure (v.display s)

/-- The answer of a builtin that does not change the store. Sleeping takes no time that a program can
notice. -/
def reply (b : Builtin) (args : List Value) (s : Store) : Answer :=
  match b with
  | .print => .write ((argument args 0).display s)
  | .printLine => .writeLine ((argument args 0).display s)
  | .input =>
    match promptOf s args with
    | .ok prompt => .ask prompt
    | .error f => .fault f
  | .clearScreen => .clear
  | .abs => .ofExcept (unary .abs Float.abs args)
  | .round => .ofExcept (unary .round roundHalfUp args)
  | .floor => .ofExcept (unary .floor Float.floor args)
  | .ceil => .ofExcept (unary .ceil Float.ceil args)
  | .sqrt => .ofExcept (squareRoot args)
  | .sin => .ofExcept (unary .sin Float.sin args)
  | .cos => .ofExcept (unary .cos Float.cos args)
  | .tan => .ofExcept (unary .tan Float.tan args)
  | .pow => .ofExcept (power args)
  | .least => .ofExcept (extremum .least smaller args)
  | .greatest => .ofExcept (extremum .greatest greater args)
  | .length => .ofExcept (lengthOf (argument args 0))
  | .toUpper => .value (.text (String.ofList (Text.upper (textArgument s args 0).toList)))
  | .toLower => .value (.text (String.ofList (Text.lower (textArgument s args 0).toList)))
  | .substring => .ofExcept (substringOf s args)
  | .replace =>
    .value (.text (String.ofList (Text.replace (textArgument s args 1).toList
      (textArgument s args 2).toList (textArgument s args 0).toList)))
  | .trim => .value (.text (String.ofList (Text.trim (textArgument s args 0).toList)))
  | .startsWith =>
    .value (.boolean ((textArgument s args 1).toList.isPrefixOf (textArgument s args 0).toList))
  | .endsWith => .value (.boolean (endsIn (textArgument s args 0) (textArgument s args 1)))
  | .contains => .value (.boolean (occursIn (textArgument s args 0) (textArgument s args 1)))
  | .indexOf => .value (.number (placeIn (textArgument s args 0) (textArgument s args 1)))
  | .copies => .ofExcept (repeated s args)
  | .padLeft => .ofExcept (paddedLeft s args)
  | .padRight => .ofExcept (paddedRight s args)
  | .arrayLength => .value (.number (Float.ofNat (sizeOf s (argument args 0))))
  | .kindOf => .value (.text (argument args 0).kind.name)
  | .parseInt => .ofExcept (integerOf s args)
  | .parseFloat => .value (floatOf s args)
  | .asText => .value (.text ((argument args 0).display s))
  | .sleep | .random | .split | .arrayNew | .arrayPush | .arrayPop => .value .null

/-- The answer of a builtin to its arguments, and the store after it. -/
def run (b : Builtin) (args : List Value) (s : Store) : Answer × Store :=
  match b with
  | .random => randomNumber args s
  | .split =>
    let parts := splitParts (textArgument s args 0) (textArgument s args 1)
    let (v, s) := s.newArray (parts.map Value.text).toArray
    (.value v, s)
  | .arrayNew => makeArray args s
  | .arrayPush => push args s
  | .arrayPop => pop args s
  | b =>
    let answer := b.reply args s
    (answer, s)

end Builtin

end StepScript
