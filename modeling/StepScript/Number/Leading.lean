import StepScript.Number.Read
import StepScript.Text.Blank
import StepScript.Text.Bytes

/-!
# Numbers at the start of a text

The longest run of digits, or the longest decimal, that a text starts with after blanks and a sign.

The end of the decimal is looked for among the bytes of the text. A point and an exponent are taken along only if
the digits they need are there, or else left behind; what lies in front of the end is then read as a decimal.
-/

namespace StepScript.Number

/-- The sign a text starts with, and the text after it. -/
def splitSign (cs : List Char) : Float × List Char :=
  match cs with
  | '-' :: rest => (-1.0, rest)
  | '+' :: rest => (1.0, rest)
  | rest => (1.0, rest)

/-! ## Whole numbers -/

/-- The value of a digit in a radix up to thirty-six; letters go on where the decimal digits end. -/
def digitValue? (radix : Nat) (c : Char) : Option Nat :=
  let value :=
    if isDigit c then some (c.toNat - '0'.toNat)
    else if 'a' ≤ c && c ≤ 'z' then some (c.toNat - 'a'.toNat + 10)
    else if 'A' ≤ c && c ≤ 'Z' then some (c.toNat - 'A'.toNat + 10)
    else none
  value.filter (· < radix)

/-- Takes the digits that a text starts with onto a value, as doubles from the left, and tells whether any was
seen. -/
def takeDigits (radix : Nat) (value : Float) (seen : Bool) : List Char → Float × Bool
  | [] => (value, seen)
  | c :: cs =>
    match digitValue? radix c with
    | some d => takeDigits radix (value * Float.ofNat radix + Float.ofNat d) true cs
    | none => (value, seen)

/-- The whole number that a text starts with. -/
def leadingInteger (radix : Nat) (cs : List Char) : Float :=
  let (sign, digits) := splitSign (Text.trimStart cs)
  let (value, seen) := takeDigits radix 0.0 false digits
  if seen then sign * value else nan

/-! ## Decimals -/

/-- Whether a byte is a decimal digit. -/
def isDigitByte (b : UInt8) : Bool := '0'.toUInt8 ≤ b && b ≤ '9'.toUInt8

/-- The index of the first byte that is no digit, when the first byte has index `i`. -/
def pastDigits (i : Nat) : List UInt8 → Nat
  | [] => i
  | b :: bs => if isDigitByte b then pastDigits (i + 1) bs else i

/-- The index of the first byte from `i` on that is no digit. -/
def digitsFrom (bytes : List UInt8) (i : Nat) : Nat := pastDigits i (bytes.drop i)

/-- Whether the byte at an index is that of a character. -/
def isAt (bytes : List UInt8) (i : Nat) (c : Char) : Bool := bytes[i]? == some c.toUInt8

/-- The end of the digits and the fraction, when the digits end at `i`. A point belongs to them if it has a digit on
either side. -/
def fractionEnd (bytes : List UInt8) (i : Nat) : Nat :=
  if isAt bytes i '.' then
    let stop := digitsFrom bytes (i + 1)
    if i + 1 < stop || 0 < i then stop else i
  else i

/-- The end of the exponent, when all in front of it ends at `i`. Without digits there is no exponent. -/
def exponentEnd (bytes : List UInt8) (i : Nat) : Nat :=
  if isAt bytes i 'e' || isAt bytes i 'E' then
    let start := if isAt bytes (i + 1) '+' || isAt bytes (i + 1) '-' then i + 2 else i + 1
    let stop := digitsFrom bytes start
    if start < stop then stop else i
  else i

/-- The end of the longest decimal that some bytes start with, if they start with any. -/
def decimalEnd? (bytes : List UInt8) : Option Nat :=
  let stop := fractionEnd bytes (digitsFrom bytes 0)
  if stop = 0 then none else some (exponentEnd bytes stop)

/-- The number that digits spell, all of them and at least one. -/
def readDigits? (cs : List Char) : Option Nat :=
  if !cs.isEmpty && cs.all isDigit then some (ofDigits cs) else none

/-- The exponent that a text spells; no text is none. -/
def readExponent? : List Char → Option Int
  | [] => some 0
  | c :: cs =>
    if c = 'e' ∨ c = 'E' then
      match cs with
      | '-' :: ds => (readDigits? ds).map fun n => -Int.ofNat n
      | '+' :: ds => (readDigits? ds).map Int.ofNat
      | ds => (readDigits? ds).map Int.ofNat
    else none

/-- The decimal that a text spells as a whole. -/
def readDecimal? (cs : List Char) : Option Decimal :=
  let whole := cs.takeWhile isDigit
  let (fraction, rest) := match cs.dropWhile isDigit with
    | '.' :: after => (after.takeWhile isDigit, after.dropWhile isDigit)
    | rest => ([], rest)
  if whole.isEmpty && fraction.isEmpty then none else (readExponent? rest).map fun e => ⟨whole, fraction, e⟩

/-- The word for an infinite number. -/
def infinityWord : List Char := "Infinity".toList

/-- The number that a text starts with. -/
def leadingFloat (cs : List Char) : Float :=
  let (sign, body) := splitSign (Text.trimStart cs)
  if infinityWord.isPrefixOf body then sign * infinity
  else
    match decimalEnd? (Text.bytes body) with
    | none => nan
    | some stop =>
      match (Text.sliceTo? body stop).bind readDecimal? with
      | some decimal => sign * decimal.value
      | none => nan

end StepScript.Number
