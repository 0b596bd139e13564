/-!
# Names with what they stand for

A finite map from names. A name has at most one entry, the newest names come first, and a name that is put
again keeps its place.

- `find?` is the view, `find?_put` says what `put` does to it;
- `sorted` lists the entries by name.
-/

namespace StepScript

/-- Entries with distinct names. -/
structure Bindings (α : Type) where
  entries : List (String × α)
  distinct : (entries.map Prod.fst).Nodup

namespace Bindings

variable {α : Type}

/-- No names. -/
def empty : Bindings α := ⟨[], List.nodup_nil⟩

instance : Inhabited (Bindings α) := ⟨empty⟩

/-- What a name stands for. -/
def find? (b : Bindings α) (x : String) : Option α := b.entries.lookup x

/-- Whether a name has an entry. -/
def contains (b : Bindings α) (x : String) : Bool := (b.find? x).isSome

/-- How many names there are. -/
def size (b : Bindings α) : Nat := b.entries.length

/-- The entries with the first one of a name replaced. -/
def overwrite (x : String) (a : α) : List (String × α) → List (String × α)
  | [] => []
  | (y, b) :: rest => if y = x then (y, a) :: rest else (y, b) :: overwrite x a rest

theorem map_fst_overwrite (x : String) (a : α) (entries : List (String × α)) :
    (overwrite x a entries).map Prod.fst = entries.map Prod.fst := by
  induction entries with
  | nil => rfl
  | cons e rest ih =>
    obtain ⟨y, b⟩ := e
    by_cases h : y = x <;> simp [overwrite, h, ih]

theorem lookup_isSome_iff (x : String) (entries : List (String × α)) :
    (entries.lookup x).isSome ↔ x ∈ entries.map Prod.fst := by
  induction entries with
  | nil => simp [List.lookup_nil]
  | cons e rest ih =>
    obtain ⟨y, b⟩ := e
    by_cases h : x = y
    · simp [h]
    · have hb : (x == y) = false := by simp [h]
      simp [List.lookup_cons, hb, ih, h]

/-- Gives a name its meaning: in place if it has one, in front of all others if not. -/
def put (b : Bindings α) (x : String) (a : α) : Bindings α :=
  if h : (b.entries.lookup x).isSome then
    ⟨overwrite x a b.entries, by rw [map_fst_overwrite]; exact b.distinct⟩
  else
    ⟨(x, a) :: b.entries, by
      rw [List.map_cons, List.nodup_cons]
      exact ⟨fun hx => h ((lookup_isSome_iff x b.entries).2 hx), b.distinct⟩⟩

/-- The entries in the order of their names. -/
def sorted (b : Bindings α) : List (String × α) :=
  b.entries.mergeSort fun d e => decide (d.1 ≤ e.1)

/-- The names in order. -/
def names (b : Bindings α) : List String := b.sorted.map Prod.fst

/-- The entries of both, those of the second before those of the first. -/
def extend (b c : Bindings α) : Bindings α :=
  c.entries.foldr (fun e acc => acc.put e.1 e.2) b

/-! ## What the operations do to the view -/

theorem lookup_overwrite (x : String) (a : α) (y : String) (entries : List (String × α))
    (h : (entries.lookup x).isSome) :
    (overwrite x a entries).lookup y = if y = x then some a else entries.lookup y := by
  induction entries with
  | nil => simp [List.lookup_nil] at h
  | cons e rest ih =>
    obtain ⟨z, b⟩ := e
    by_cases hz : z = x
    · subst hz
      by_cases hy : y = z
      · simp [overwrite, hy]
      · have hb : (y == z) = false := by simp [hy]
        simp [overwrite, List.lookup_cons, hy, hb]
    · have hxz : (x == z) = false := by simp [Ne.symm hz]
      have hr : (rest.lookup x).isSome := by simpa [List.lookup_cons, hxz] using h
      by_cases hy : y = z
      · subst hy
        simp [overwrite, hz]
      · have hb : (y == z) = false := by simp [hy]
        simp [overwrite, List.lookup_cons, hz, hb, ih hr]

@[simp] theorem find?_empty (x : String) : (empty : Bindings α).find? x = none := rfl

@[simp] theorem find?_put (b : Bindings α) (x : String) (a : α) (y : String) :
    (b.put x a).find? y = if y = x then some a else b.find? y := by
  unfold put find?
  split
  · rename_i h
    exact lookup_overwrite x a y b.entries h
  · by_cases hy : y = x
    · simp [hy]
    · have hb : (y == x) = false := by simp [hy]
      simp [List.lookup_cons, hy, hb]

@[simp] theorem contains_put (b : Bindings α) (x : String) (a : α) (y : String) :
    (b.put x a).contains y = (y == x || b.contains y) := by
  by_cases h : y = x <;> simp [contains, h]

/-- What `c` says goes before what `b` says. -/
@[simp] theorem find?_extend (b c : Bindings α) (x : String) : (b.extend c).find? x = (c.find? x).or (b.find? x) := by
  unfold extend
  rw [show c.find? x = c.entries.lookup x from rfl]
  induction c.entries with
  | nil => rfl
  | cons e rest ih =>
    rw [List.foldr_cons, find?_put, ih, List.lookup_cons]
    by_cases h : x = e.1
    · simp [h]
    · have hb : (x == e.1) = false := by simp [h]
      rw [if_neg h, hb]

/-! ## The entries in order -/

theorem lookup_eq_some_iff {x : String} {a : α} {entries : List (String × α)} (h : (entries.map Prod.fst).Nodup) :
    entries.lookup x = some a ↔ (x, a) ∈ entries := by
  induction entries with
  | nil => simp
  | cons e rest ih =>
    obtain ⟨y, b⟩ := e
    obtain ⟨hy, hrest⟩ := List.nodup_cons.1 h
    by_cases hx : x = y
    · subst hx
      have hn : (x, a) ∉ rest := fun hm => hy (List.mem_map.2 ⟨_, hm, rfl⟩)
      simp [hn, eq_comm]
    · have hb : (x == y) = false := by simp [hx]
      simp [List.lookup_cons, hb, ih hrest, hx]

/-- The entries in order are the entries. -/
theorem mem_sorted_iff (b : Bindings α) (x : String) (a : α) : (x, a) ∈ b.sorted ↔ b.find? x = some a := by
  rw [sorted, List.mem_mergeSort]
  exact (lookup_eq_some_iff b.distinct).symm

/-- **They are in order, and no name comes twice.** -/
theorem pairwise_sorted (b : Bindings α) : b.sorted.Pairwise fun d e => d.1 < e.1 := by
  have hle : b.sorted.Pairwise fun d e => decide (d.1 ≤ e.1) = true := by
    apply List.pairwise_mergeSort
    · intro c d e hcd hde
      simpa using String.le_trans (of_decide_eq_true hcd) (of_decide_eq_true hde)
    · intro d e
      simpa using String.le_total d.1 e.1
  have hne : b.sorted.Pairwise fun d e => d.1 ≠ e.1 := by
    have hnodup : (b.sorted.map Prod.fst).Nodup := ((List.mergeSort_perm b.entries _).map _).nodup_iff.2 b.distinct
    exact List.pairwise_map.1 hnodup
  refine (hle.and hne).imp fun {d e} h => ?_
  refine Decidable.of_not_not fun hlt => h.2 ?_
  exact String.le_antisymm (of_decide_eq_true h.1) (String.not_lt.1 hlt)

end Bindings

end StepScript
