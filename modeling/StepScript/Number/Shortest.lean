import StepScript.Number.Exact

/-!
# The fewest digits that read back

A double is the nearest one to every real of an interval around it. Among the decimals `d · 10^k` of that
interval the fewest digits win; of two neighbours on the winning grid the nearer wins, and of two equally
near ones the greater.

- `shortest m q` gives `d` and `k` for the value `m · 2^q`.
-/

namespace StepScript.Number

/-- How many decimal digits `n` has; zero has one. -/
def digitCount (n : Nat) : Nat := (Nat.toDigits 10 n).length

/-- The least `j` up to `fuel` with `den ≤ num · 10^j`. -/
def leadingZeros (den : Nat) : Nat → Nat → Nat
  | 0, _ => 0
  | fuel + 1, num => if den ≤ num then 0 else leadingZeros den fuel (num * 10) + 1

/-- The `e` with `10^e ≤ num / den < 10^(e+1)`, for a positive fraction above `10^-400`. -/
def magnitude (num den : Nat) : Int :=
  if den ≤ num then (digitCount (num / den) : Int) - 1 else -(leadingZeros den 400 num : Int)

/-- The reals that round to a double, in units of a quarter of its last place: from `low` to `high`, the
ends included iff `closed`. All of it is over the common denominator `den`. -/
structure Rounding where
  low : Nat
  mid : Nat
  high : Nat
  den : Nat
  closed : Bool

/-- The rounding interval of `m · 2^q`. The gap below a power of two is half the gap above it. -/
def Rounding.of (m : Nat) (q : Int) : Rounding :=
  let scale := Nat.pow 2 (q - 2).toNat
  let below := if m = Nat.pow 2 52 && q != -1074 then 1 else 2
  { low := (4 * m - below) * scale
    mid := 4 * m * scale
    high := (4 * m + 2) * scale
    den := Nat.pow 2 (2 - q).toNat
    closed := m % 2 == 0 }

/-- Whether `num / den` lies in the interval. -/
def Rounding.holds (r : Rounding) (num den : Nat) : Bool :=
  let x := num * r.den
  if r.closed then r.low * den ≤ x && x ≤ r.high * den else r.low * den < x && x < r.high * den

/-- The member of the grid `10^k` chosen for the interval, if it holds one. Only the two neighbours of the
value need a look. -/
def Rounding.onGrid (r : Rounding) (k : Int) : Option Nat :=
  let up := Nat.pow 10 k.toNat
  let down := Nat.pow 10 (-k).toNat
  let d := r.mid * down / (r.den * up)
  let floorIn := r.holds (d * up) down
  let ceilIn := r.holds ((d + 1) * up) down
  let twice := 2 * (r.mid * down)
  let between := (2 * d + 1) * up * r.den
  if floorIn && ceilIn then some (if twice < between then d else d + 1)
  else if floorIn then some d
  else if ceilIn then some (d + 1)
  else none

/-- The first grid with a member, trying `n` digits, `n + 1` digits and so on. -/
def Rounding.search (r : Rounding) (top : Int) : Nat → Nat → Nat × Int
  | 0, n => (r.mid / r.den, top - n + 1)
  | fuel + 1, n =>
    let k := top - n + 1
    match r.onGrid k with
    | some d => (d, k)
    | none => r.search top fuel (n + 1)

/-- The same decimal without zeros at the end of its digits: a value just below a power of ten may be
rounded up to it. -/
def dropZeros : Nat → Nat × Int → Nat × Int
  | 0, dk => dk
  | fuel + 1, (d, k) => if d % 10 = 0 then dropZeros fuel (d / 10, k + 1) else (d, k)

/-- The digits `d` and exponent `k` of the shortest decimal `d · 10^k` that reads back as `m · 2^q`, for
positive `m`. Seventeen digits always suffice. -/
def shortest (m : Nat) (q : Int) : Nat × Int :=
  let r := Rounding.of m q
  dropZeros 20 (r.search (magnitude r.mid r.den) 18 1)

end StepScript.Number
