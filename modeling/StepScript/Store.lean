import StepScript.Random
import StepScript.Scopes

/-!
# The store

Everything a running program can change: its frames, its arrays, the count of functions made so far, and
its random numbers. Arrays keep their place and are never given up, so a place is an identity.
-/

namespace StepScript

/-- The state of a program's data. -/
structure Store where
  scopes : Scopes
  arrays : Array (Array Value)
  closures : Nat
  random : Random
deriving Inhabited

namespace Store

/-- The frame of the global names. -/
def globals : FrameId := 0

/-- Nothing but an empty global frame. -/
def initial (random : Random) : Store := ⟨.root, #[], 0, random⟩

/-- The elements of an array. -/
def items (s : Store) (id : ArrayId) : Array Value := s.arrays[id]?.getD #[]

/-- Changes the frames. -/
@[inline] def mapScopes (change : Scopes → Scopes) : Store → Store
  | ⟨scopes, arrays, closures, random⟩ => ⟨change scopes, arrays, closures, random⟩

/-- Changes the elements of one array. -/
def mapItems (id : ArrayId) (change : Array Value → Array Value) : Store → Store
  | ⟨scopes, arrays, closures, random⟩ => ⟨scopes, arrays.modify id change, closures, random⟩

/-- An array of the given elements that no value refers to yet. -/
def newArray (items : Array Value) : Store → Value × Store
  | ⟨scopes, arrays, closures, random⟩ =>
    (.array arrays.size, ⟨scopes, arrays.push items, closures, random⟩)

/-- The elements with `v` at place `i`; a gap before it is filled with nulls. -/
def writeAt (items : Array Value) (i : Nat) (v : Value) : Array Value :=
  if i < items.size then items.setIfInBounds i v
  else (items ++ Array.replicate (i - items.size) Value.null).push v

/-- A random number. -/
def draw : Store → Float × Store
  | ⟨scopes, arrays, closures, random⟩ =>
    let (x, random) := random.next
    (x, ⟨scopes, arrays, closures, random⟩)

/-- The number of a new function. -/
def newClosure : Store → Nat × Store
  | ⟨scopes, arrays, closures, random⟩ => (closures, ⟨scopes, arrays, closures + 1, random⟩)

/-! ## What the operations do to the arrays -/

theorem items_push {s s' : Store} {items : Array Value} (h : s'.arrays = s.arrays.push items) (id : ArrayId) :
    s'.items id = if id = s.arrays.size then items else s.items id := by
  unfold Store.items
  rw [h, Array.getElem?_push]
  split <;> rfl

theorem items_modify {s s' : Store} {id : ArrayId} {change : Array Value → Array Value}
    (h : s'.arrays = s.arrays.modify id change) (other : ArrayId) :
    s'.items other = if id = other ∧ other < s.arrays.size then change (s.items other) else s.items other := by
  unfold Store.items
  rw [h, Array.getElem?_modify]
  by_cases hid : id = other
  · by_cases hlt : other < s.arrays.size <;> simp [hid, hlt]
  · simp [hid]

end Store

end StepScript
