import StepScript.Store
import StepScript.Text.Quoted

/-!
# How values are shown

Arrays are shown by their elements. An array that is being shown already, or that lies in more arrays than
there is room for, is cut short, so showing ends on every store.
-/

namespace StepScript

/-- So many arrays are shown inside each other. -/
def maxShownDepth : Nat := 32

/-- What stands for an array that is cut short. -/
def cutArray : String := "[...]"

namespace Value

/-- The text of a value inside the arrays `opened`, with room for so many more. -/
def showIn (s : Store) : (room : Nat) → (opened : List ArrayId) → Value → String
  | _, _, null => "null"
  | _, _, boolean value => if value then "true" else "false"
  | _, _, number value => Number.text value
  | _, _, text value => value
  | 0, _, array _ => cutArray
  | room + 1, opened, array id =>
    if opened.contains id then cutArray
    else "[" ++ String.intercalate ", " ((s.items id).toList.map (showIn s room (id :: opened))) ++ "]"
  | _, _, closure function => "<function " ++ function.name ++ ">"
  | _, _, native function => "<native fn: " ++ function.name ++ ">"

/-- The text of a value, as programs print it. -/
def display (s : Store) (v : Value) : String := showIn s maxShownDepth [] v

/-- The text of a value for a listing of variables: a string is quoted. -/
def inspect (s : Store) : Value → String
  | text value => Text.quoted value
  | v => v.display s

/-- Whether a value counts as true. -/
def truthy (s : Store) : Value → Bool
  | null => false
  | boolean value => value
  | number value => value != 0.0
  | text value => value != ""
  | array id => (s.items id).size != 0
  | closure _ => true
  | native _ => true

end Value

end StepScript
