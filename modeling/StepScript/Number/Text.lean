import StepScript.Number.Shortest

/-!
# How numbers are written

A number is written without an exponent: whole numbers below `10^21` exactly, everything else with the
fewest digits that read back. A negative zero is written like zero.
-/

namespace StepScript.Number

/-- Whole numbers from here on are written by their shortest digits and not exactly. -/
def exactLimit : Nat := Nat.pow 10 21

/-- `d · 10^k` with a point and as many zeros as it takes. -/
def positional (d : Nat) (k : Int) : String :=
  let digits := Nat.toDigits 10 d
  if 0 ≤ k then
    String.ofList (digits ++ List.replicate k.toNat '0')
  else
    let places := (-k).toNat
    if places < digits.length then
      let whole := digits.length - places
      String.ofList (digits.take whole ++ '.' :: digits.drop whole)
    else
      String.ofList ('0' :: '.' :: (List.replicate (places - digits.length) '0' ++ digits))

/-- The text of `m · 2^q` without a sign. -/
def magnitudeText (m : Nat) (q : Int) : String :=
  if isWhole m q && wholePart m q < exactLimit then
    String.ofList (Nat.toDigits 10 (wholePart m q))
  else
    let (d, k) := shortest m q
    positional d k

/-- The text of a number. -/
def text (x : Float) : String :=
  match exact x with
  | .nan => "NaN"
  | .infinite negative => if negative then "-Infinity" else "Infinity"
  | .finite negative m q =>
    if negative && m != 0 then "-" ++ magnitudeText m q else magnitudeText m q

/-- The text of a whole number. -/
def intText (n : Int) : String :=
  if n < 0 then "-" ++ String.ofList (Nat.toDigits 10 n.natAbs) else String.ofList (Nat.toDigits 10 n.natAbs)

/-- The text of a count. -/
def natText (n : Nat) : String := String.ofList (Nat.toDigits 10 n)

end StepScript.Number
