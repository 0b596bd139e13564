/-!
# Cutting and building text

- `between i j` is the part of a text between two places, given in either order;
- `copies` is a text so many times in a row;
- `cycled` is so many characters of a text that starts again when it ends.
-/

namespace StepScript.Text

/-- The characters between two places, whichever comes first. -/
def between (cs : List Char) (i j : Nat) : List Char := (cs.take (max i j)).drop (min i j)

/-- `out` and then the text so many times. -/
def copiesOnto (text : String) : Nat → String → String
  | 0, out => out
  | n + 1, out => copiesOnto text n (out ++ text)

/-- The text so many times in a row. -/
def copies (text : String) (n : Nat) : String := copiesOnto text n ""

/-- `out` and then so many characters, first those of `rest` and then those of `fill` again and again. -/
def cycledOnto (fill : List Char) : Nat → List Char → String → String
  | 0, _, out => out
  | n + 1, c :: rest, out => cycledOnto fill n rest (out.push c)
  | n + 1, [], out =>
    match fill with
    | c :: rest => cycledOnto fill n rest (out.push c)
    | [] => out

/-- The first so many characters of the text repeated without end. -/
def cycled (fill : String) (n : Nat) : String := cycledOnto fill.toList n fill.toList ""

end StepScript.Text
