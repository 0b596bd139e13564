/-!
# The exact value of a number

Numbers are double-precision. Everything that turns one into digits, a position or a count first reads
it as what it is, a sign and `m · 2^q` with natural `m`, and then works in natural numbers.
-/

namespace StepScript.Number

/-- What a double stands for. -/
inductive Exact where
  | nan
  | infinite (negative : Bool)
  /-- The value `m · 2^q`, or `-(m · 2^q)` if `negative`; a negative zero keeps its sign. -/
  | finite (negative : Bool) (m : Nat) (q : Int)
deriving DecidableEq

/-- The exact value of `x`, read off its sign, exponent and fraction fields. -/
def exact (x : Float) : Exact :=
  let bits := x.toBits.toNat
  let negative := bits / Nat.pow 2 63 == 1
  let biased : Nat := bits / Nat.pow 2 52 % Nat.pow 2 11
  let fraction := bits % Nat.pow 2 52
  if biased = Nat.pow 2 11 - 1 then
    if fraction = 0 then .infinite negative else .nan
  else if biased = 0 then
    .finite negative fraction (-1074)
  else
    .finite negative (fraction + Nat.pow 2 52) ((biased : Int) - 1075)

/-- The whole part of `m · 2^q`. -/
def wholePart (m : Nat) (q : Int) : Nat :=
  if 0 ≤ q then m * Nat.pow 2 q.toNat else m / Nat.pow 2 (-q).toNat

/-- Whether `m · 2^q` is a whole number. -/
def isWhole (m : Nat) (q : Int) : Bool :=
  0 ≤ q || m % Nat.pow 2 (-q).toNat == 0

/-- The greatest unsigned 64-bit number. -/
def maxUnsigned : Nat := Nat.pow 2 64 - 1

/-- The greatest signed 64-bit number. -/
def maxSigned : Nat := Nat.pow 2 63 - 1

/-- The least signed 64-bit number. -/
def minSigned : Int := -(Nat.pow 2 63 : Nat)

/-- The whole part of `x`, held within the unsigned 64-bit numbers; no number counts as zero. -/
def toUnsigned (x : Float) : Nat :=
  match exact x with
  | .nan => 0
  | .infinite negative => if negative then 0 else maxUnsigned
  | .finite negative m q => if negative then 0 else min (wholePart m q) maxUnsigned

/-- The whole part of `x`, rounded toward zero and held within the signed 64-bit numbers; no number
counts as zero. -/
def toSigned (x : Float) : Int :=
  match exact x with
  | .nan => 0
  | .infinite negative => if negative then minSigned else maxSigned
  | .finite negative m q =>
    if negative then max (-(wholePart m q : Int)) minSigned else min (wholePart m q) maxSigned

/-- Whether `x` is a whole number; infinities and no number are not. -/
def isIntegral (x : Float) : Bool :=
  match exact x with
  | .finite _ m q => isWhole m q
  | _ => false

/-- Whether `x` is below zero; a negative zero is not. -/
def isNegative (x : Float) : Bool :=
  match exact x with
  | .nan => false
  | .infinite negative => negative
  | .finite negative m _ => negative && m != 0

end StepScript.Number
