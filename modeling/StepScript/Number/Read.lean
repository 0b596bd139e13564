import StepScript.Number.Shortest

/-!
# Reading decimals

A decimal is read as the nearest double; values too great for a double read as infinity.
-/

namespace StepScript.Number

/-- Positive infinity. -/
def infinity : Float := 1.0 / 0.0

/-- No number. -/
def nan : Float := 0.0 / 0.0

/-- The decimal digits, from `0` to `9`. -/
def isDigit (c : Char) : Bool := '0' ≤ c && c ≤ '9'

/-- The natural number that a run of decimal digits spells. -/
def ofDigits (digits : List Char) : Nat :=
  digits.foldl (fun n c => 10 * n + (c.toNat - '0'.toNat)) 0

/-- The double nearest to `m · 10^e`. Magnitudes far outside the range of doubles are decided by their
digit count, so that no power of ten beyond a few hundred digits is ever formed. -/
def ofDecimal (m : Nat) (e : Int) : Float :=
  let top := (digitCount m : Int) + e
  if m = 0 then 0.0
  else if 310 < top then infinity
  else if top < -330 then 0.0
  else Float.ofScientific m (decide (e < 0)) e.natAbs

/-- A run of digits, a fraction after an optional point, and an exponent. -/
structure Decimal where
  whole : List Char
  fraction : List Char
  exponent : Int

/-- The double nearest to a decimal. -/
def Decimal.value (d : Decimal) : Float :=
  ofDecimal (ofDigits (d.whole ++ d.fraction)) (d.exponent - d.fraction.length)

/-- The value of `digits` or `digits.digits`. -/
def ofLiteral (chars : List Char) : Float :=
  Decimal.value ⟨chars.takeWhile isDigit, (chars.dropWhile isDigit).drop 1, 0⟩

end StepScript.Number
