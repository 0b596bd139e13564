/-!
# Calls in progress

The calls that a program is in the midst of, with their number at hand: every call asks for it.
-/

namespace StepScript

/-- A call in progress: the name of the function and the line of the call. -/
structure Call where
  name : String
  line : Nat
deriving DecidableEq

/-- The calls in progress, the innermost first. -/
structure Calls where
  toList : List Call
  /-- How many they are. -/
  depth : Nat
  depth_eq : depth = toList.length

namespace Calls

/-- No call. -/
def none : Calls := ⟨[], 0, rfl⟩

/-- One more call, inside all others. -/
def push (c : Calls) (call : Call) : Calls :=
  ⟨call :: c.toList, c.depth + 1, by rw [c.depth_eq, List.length_cons]⟩

/-- The calls without the innermost. -/
def pop (c : Calls) : Calls := ⟨c.toList.tail, c.depth - 1, by rw [c.depth_eq, List.length_tail]⟩

/-- The calls are known by their list. -/
theorem eq_of_toList {c d : Calls} (h : c.toList = d.toList) : c = d := by
  obtain ⟨cs, m, hm⟩ := c
  obtain ⟨ds, n, hn⟩ := d
  subst hm hn h
  rfl

@[simp] theorem toList_none : none.toList = [] := rfl

@[simp] theorem toList_push (c : Calls) (call : Call) : (c.push call).toList = call :: c.toList := rfl

@[simp] theorem toList_pop (c : Calls) : c.pop.toList = c.toList.tail := rfl

/-- The end of a call restores what was before it. -/
@[simp] theorem pop_push (c : Calls) (call : Call) : (c.push call).pop = c := eq_of_toList rfl

end Calls

end StepScript
