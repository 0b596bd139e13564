import StepScript.Text.CaseTable
import StepScript.Text.Cased

/-!
# Upper and lower case of a text

Case changes letter by letter by the full mappings, so a text may grow. One letter looks at its
neighbours: a capital sigma that ends a word becomes the final form.
-/

namespace StepScript.Text

/-- The mapping of one character by a table of runs and a table of longer images. -/
def mapCase (runs : List CaseRun) (special : List (Nat × List Nat)) (c : Char) : List Char :=
  let n := c.toNat
  match special.find? (fun e => e.1 == n) with
  | some (_, image) => image.map Char.ofNat
  | none =>
    match runs.find? (fun r => r.moves n) with
    | some r => [Char.ofNat ((n : Int) + r.shift).toNat]
    | none => [c]

/-- The upper case of one character; of ASCII only the small letters change. -/
def upperChar (c : Char) : List Char :=
  if c.toNat < 0x80 then [c.toUpper] else mapCase upperRuns upperSpecial c

/-- The lower case of one character on its own; of ASCII only the capitals change. -/
def lowerChar (c : Char) : List Char :=
  if c.toNat < 0x80 then [c.toLower] else mapCase lowerRuns lowerSpecial c

/-- Whether the nearest character that is not passed over has case. -/
def meetsCased (cs : List Char) : Bool :=
  match cs.dropWhile isCaseIgnorable with
  | [] => false
  | c :: _ => isCased c

/-- The capital sigma. -/
def capitalSigma : Char := Char.ofNat 0x3a3

/-- The text in upper case. -/
def upper (cs : List Char) : List Char := cs.flatMap upperChar

/-- Lower case from left to right: `before` is what was read, the latest first, and `out` what was
written, the latest first. -/
def lowerFrom (before out : List Char) : List Char → List Char
  | [] => out.reverse
  | c :: cs =>
    let image :=
      if c == capitalSigma then
        if meetsCased before && !meetsCased cs then [Char.ofNat 0x3c2] else [Char.ofNat 0x3c3]
      else lowerChar c
    lowerFrom (c :: before) (image.reverse ++ out) cs

/-- The text in lower case. -/
def lower (cs : List Char) : List Char := lowerFrom [] [] cs

end StepScript.Text
