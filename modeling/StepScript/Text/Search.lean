/-!
# Finding a text in a text

Occurrences are taken from the left and do not overlap.

- `pieces pattern text` is what stands between the occurrences of a non-empty pattern;
- `indexOf?` is the place of the first occurrence;
- `replace` joins the pieces with another text.
-/

namespace StepScript.Text

/-- The pieces of the rest of a text: `piece` is the current piece and `done` the finished ones, both in
reverse. -/
def piecesFrom (pattern piece : List Char) (done : List (List Char)) (rest : List Char) :
    List (List Char) :=
  match rest with
  | [] => (piece.reverse :: done).reverse
  | c :: cs =>
    if pattern ≠ [] ∧ pattern.isPrefixOf (c :: cs) then
      piecesFrom pattern [] (piece.reverse :: done) (cs.drop (pattern.length - 1))
    else piecesFrom pattern (c :: piece) done cs
termination_by rest.length
decreasing_by
  · simp only [List.length_drop, List.length_cons]
    omega
  · simp

/-- What stands between the occurrences of a non-empty pattern; at least one piece. -/
def pieces (pattern text : List Char) : List (List Char) := piecesFrom pattern [] [] text

/-- The place of the first occurrence at or after the start of `rest`, which stands at `place`. -/
def indexFrom? (pattern : List Char) (place : Nat) : List Char → Option Nat
  | [] => if pattern.isPrefixOf [] then some place else none
  | c :: cs => if pattern.isPrefixOf (c :: cs) then some place else indexFrom? pattern (place + 1) cs

/-- The place of the first occurrence of a pattern. -/
def indexOf? (pattern text : List Char) : Option Nat := indexFrom? pattern 0 text

/-- Every character after the given text, and the text once more at the end. -/
def interleave (around : List Char) (cs : List Char) : List Char :=
  around ++ cs.flatMap fun c => c :: around

/-- The text with every occurrence of the pattern replaced; an empty pattern occurs around every
character. -/
def replace (pattern replacement text : List Char) : List Char :=
  if pattern = [] then interleave replacement text
  else List.intercalate replacement (pieces pattern text)

end StepScript.Text
