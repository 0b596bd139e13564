/-!
# Bytes of a text

A text in UTF-8, and the part of it that a number of bytes makes up.
-/

namespace StepScript.Text

/-- The bytes of a text in UTF-8. -/
def bytes (cs : List Char) : List UInt8 := cs.flatMap String.utf8EncodeChar

/-- The text that the first `n` bytes make up; there is none if a character does not end where they do. -/
def sliceTo? : List Char → Nat → Option (List Char)
  | _, 0 => some []
  | [], _ + 1 => none
  | c :: cs, n + 1 => if c.utf8Size ≤ n + 1 then (sliceTo? cs (n + 1 - c.utf8Size)).map (c :: ·) else none

end StepScript.Text
