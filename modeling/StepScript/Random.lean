/-!
# Random numbers

A generator fixed by a 64-bit seed: the seed is stretched to a key, the key is run through twelve rounds of
the ChaCha block function with a block counter, and every two words of the stream give one number.
-/

namespace StepScript

/-- A generator: its key and how many numbers were drawn. -/
structure Random where
  key : List UInt32
  drawn : Nat
deriving Inhabited

namespace Random

/-- Rotation of a word to the left. -/
def rotateLeft (x : UInt32) (n : UInt32) : UInt32 := (x <<< n) ||| (x >>> (32 - n))

/-- Rotation of a word to the right; by nothing it stays the same. -/
def rotateRight (x : UInt32) (n : UInt32) : UInt32 :=
  if n = 0 then x else (x >>> n) ||| (x <<< (32 - n))

/-- Words of the key from the state of a linear congruential generator. -/
def keyWords : Nat → UInt64 → List UInt32
  | 0, _ => []
  | n + 1, s =>
    let s := s * 6364136223846793005 + 11634580027462260723
    let mixed := (((s >>> 18) ^^^ s) >>> 27).toUInt32
    rotateRight mixed (s >>> 59).toUInt32 :: keyWords n s

/-- The generator of a seed. -/
def ofSeed (seed : UInt64) : Random := ⟨keyWords 8 seed, 0⟩

/-- The word of a block at a place. -/
def word (block : Array UInt32) (i : Nat) : UInt32 := block.getD i 0

/-- The mixing of four words of a block. -/
def quarter (a b c d : Nat) (x : Array UInt32) : Array UInt32 :=
  let wa := word x a + word x b
  let wd := rotateLeft (word x d ^^^ wa) 16
  let wc := word x c + wd
  let wb := rotateLeft (word x b ^^^ wc) 12
  let wa := wa + wb
  let wd := rotateLeft (wd ^^^ wa) 8
  let wc := wc + wd
  let wb := rotateLeft (wb ^^^ wc) 7
  (((x.setIfInBounds a wa).setIfInBounds b wb).setIfInBounds c wc).setIfInBounds d wd

/-- A round over the columns and a round over the diagonals. -/
def doubleRound (x : Array UInt32) : Array UInt32 :=
  let x := quarter 0 4 8 12 x
  let x := quarter 1 5 9 13 x
  let x := quarter 2 6 10 14 x
  let x := quarter 3 7 11 15 x
  let x := quarter 0 5 10 15 x
  let x := quarter 1 6 11 12 x
  let x := quarter 2 7 8 13 x
  quarter 3 4 9 14 x

/-- The same function so many times. -/
def times (f : Array UInt32 → Array UInt32) : Nat → Array UInt32 → Array UInt32
  | 0, x => x
  | n + 1, x => times f n (f x)

/-- The block with a number: constants, key, counter and two words of zero, mixed and added to
themselves. -/
def block (key : List UInt32) (counter : Nat) : Array UInt32 :=
  let start := ([0x61707865, 0x3320646e, 0x79622d32, 0x6b206574] ++ key ++
    [UInt32.ofNat (counter % Nat.pow 2 32), UInt32.ofNat (counter / Nat.pow 2 32 % Nat.pow 2 32), 0, 0]).toArray
  Array.zipWith (· + ·) (times doubleRound 6 start) start

/-- A number from zero up to, but not including, one, and the generator after it. -/
def next (r : Random) : Float × Random :=
  let at0 := 2 * r.drawn
  let words := block r.key (at0 / 16)
  let low := (word words (at0 % 16)).toUInt64
  let high := (word words (at0 % 16 + 1)).toUInt64
  let bits := (low ||| (high <<< 32)) >>> 11
  (bits.toFloat / 9007199254740992.0, { r with drawn := r.drawn + 1 })

end Random

end StepScript
