import StepScript.Proofs.Machine.Bodies

/-!
# Regions of the store

A region is a set of places in the store. It is closed if the values in its frames and arrays refer to places in it and
its frames stand inside frames of it (`Store.Closed`). A machine forges no reference: what it takes hold of comes from
what it has in hand, from a place that is in hand, or is new.

* `Store.Edit R s s'` says all that a step can do to the store, if what is in hand lies in `R`: it changes places of `R`
  only, puts values of `R` there, and makes places that hold values of `R`.
* `Ranges R base m` says that `R` is closed and that the work above `base` has nothing in hand but places of `R`. One
  move edits the store within `R` and ranges over `R` and the places that it made (`Ranges.move`).
-/

namespace StepScript

/-- A set of places in the store. -/
abbrev Region := Location → Prop

/-- The place that a value refers to, if there is one, lies in the region. -/
def Value.Lies (R : Region) (v : Value) : Prop := ∀ l, v.location? = some l → R l

/-- The places of a store. -/
def Store.Exists (s : Store) : Region
  | .frame f => f < s.scopes.size
  | .array id => id < s.arrays.size

/-- The place was made between two stores. -/
def Location.New (s s' : Store) (l : Location) : Prop := ¬s.Exists l ∧ s'.Exists l

/-- A region with the places that were made between two stores. -/
def Region.grown (R : Region) (s s' : Store) : Region := fun l => R l ∨ l.New s s'

section Values

variable {R : Region} {s s' : Store} {v : Value}

theorem Value.Plain.lies (h : v.Plain) (R : Region) : v.Lies R := by
  intro l hl
  have hnone : v.location? = none := h
  rw [hnone] at hl
  cases hl

theorem lies_array {id : ArrayId} (h : R (.array id)) : (Value.array id).Lies R := by
  rintro l ⟨⟩
  exact h

theorem lies_closure {f : Closure} (h : R (.frame f.home)) : (Value.closure f).Lies R := by
  rintro l ⟨⟩
  exact h

theorem Value.Lies.grown (h : v.Lies R) : v.Lies (R.grown s s') := fun l hl => Or.inl (h l hl)

theorem lies_argument {args : List Value} (ha : ∀ v ∈ args, v.Lies R) (i : Nat) :
    (Builtin.argument args i).Lies R := by
  rw [Builtin.argument, List.getD_eq_getElem?_getD]
  cases h : args[i]? with
  | none => exact Value.Plain.lies (v := .null) rfl R
  | some v => exact ha v (List.mem_of_getElem? h)

end Values

/-! ## Closed regions -/

/-- What a region holds refers to places in it, and its frames stand inside frames of it. -/
structure Store.Closed (R : Region) (s : Store) : Prop where
  slots : ∀ f x v, R (.frame f) → (s.scopes.slots f).find? x = some v → v.Lies R
  parent : ∀ f p, R (.frame f) → s.scopes.enclosing? f = some p → R (.frame p)
  items : ∀ id v, R (.array id) → v ∈ s.items id → v.Lies R

section Closed

variable {R : Region} {s : Store}

/-- The frame that a name is found in lies in the region, if the search starts there. -/
theorem Store.Closed.home? (hs : s.Closed R) {f g : FrameId} {x : String} (hf : R (.frame f))
    (h : s.scopes.home? f x = some g) : R (.frame g) := by
  fun_induction Scopes.home? s.scopes f x with
  | case1 f hlt hc =>
    cases h
    exact hf
  | case2 f hlt hc p hp ih =>
    refine ih (hs.parent f p hf ?_) h
    simp [Scopes.enclosing?, hlt, hp]
  | case3 => cases h
  | case4 => cases h

theorem Store.Closed.get? (hs : s.Closed R) {f : FrameId} {x : String} {v : Value} (hf : R (.frame f))
    (h : s.scopes.get? f x = some v) : v.Lies R := by
  obtain ⟨g, hg, hv⟩ := Option.bind_eq_some_iff.1 h
  exact hs.slots g x v (hs.home? hf hg) hv

/-- An element that is read refers to a place in the region of its array. -/
theorem Store.Closed.readElement (hs : s.Closed R) {object index v : Value} (ho : object.Lies R)
    (h : readElement s object index = .ok v) : v.Lies R := by
  unfold StepScript.readElement at h
  split at h
  · rename_i id
    cases hi : placeOf index with
    | error f =>
      rw [hi] at h
      cases h
    | ok i =>
      rw [hi] at h
      dsimp only [bind, Except.bind] at h
      split at h
      · rename_i w hw
        cases h
        exact hs.items id v (ho _ rfl) (Array.mem_of_getElem? hw)
      · cases h
  · cases hi : placeOf index with
    | error f =>
      rw [hi] at h
      cases h
    | ok i =>
      rw [hi] at h
      dsimp only [bind, Except.bind] at h
      split at h
      · rename_i c _
        cases h
        exact Value.Plain.lies (v := .text c.toString) rfl R
      · cases h
  · cases h
  · cases h

end Closed

/-! ## What a step can do to the store -/

/-- The store is changed within a region: not at all but for its counters, by binding a name, by entering a frame, by a
new array, or by new elements of an array. -/
inductive Store.Edit (R : Region) (s s' : Store) : Prop
  | same : s'.scopes = s.scopes → s'.arrays = s.arrays → Edit R s s'
  | define (f : FrameId) (x : String) (v : Value) : R (.frame f) → v.Lies R →
      s'.scopes = s.scopes.define f x v → s'.arrays = s.arrays → Edit R s s'
  /-- A frame is made inside another, and names are bound in it. -/
  | enter (p : FrameId) (entries : List (String × Value)) : R (.frame p) → (∀ e ∈ entries, e.2.Lies R) →
      s'.scopes = entries.foldl (fun scopes e => scopes.define s.scopes.size e.1 e.2) (s.scopes.child p) →
      s'.arrays = s.arrays → Edit R s s'
  | array (items : Array Value) : (∀ v ∈ items, v.Lies R) → s'.scopes = s.scopes →
      s'.arrays = s.arrays.push items → Edit R s s'
  | items (id : ArrayId) (change : Array Value → Array Value) : R (.array id) →
      (∀ v ∈ change (s.items id), v.Lies R) → s'.scopes = s.scopes → s'.arrays = s.arrays.modify id change → Edit R s s'

/-- Names that are bound one after the other in a frame change nothing but what it binds. -/
theorem Scopes.foldl_define {R : Region} (s : Scopes) (f : FrameId) (entries : List (String × Value))
    (he : ∀ e ∈ entries, e.2.Lies R) :
    let s' := entries.foldl (fun s e => s.define f e.1 e.2) s
    s'.size = s.size ∧ (∀ g, s'.enclosing? g = s.enclosing? g) ∧ (∀ g, g ≠ f → s'.slots g = s.slots g) ∧
      ∀ x v, (s'.slots f).find? x = some v → v.Lies R ∨ (s.slots f).find? x = some v := by
  induction entries generalizing s with
  | nil => exact ⟨rfl, fun _ => rfl, fun _ _ => rfl, fun _ _ h => Or.inr h⟩
  | cons e rest ih =>
    obtain ⟨hv, hrest⟩ := List.forall_mem_cons.1 he
    obtain ⟨hsize, hparent, hother, hf⟩ := ih (s.define f e.1 e.2) hrest
    refine ⟨hsize.trans (size_define s f e.1 e.2), fun g => (hparent g).trans (enclosing?_define s f e.1 e.2 g), ?_, ?_⟩
    · intro g hg
      have hne : ¬(f = g ∧ g < s.size) := fun h => hg h.1.symm
      rw [List.foldl_cons, hother g hg, slots_define, if_neg hne]
    · intro x v h
      rcases hf x v h with h | h
      · exact Or.inl h
      · rw [slots_define] at h
        split at h
        · rw [Bindings.find?_put] at h
          split at h
          · cases h
            exact Or.inl hv
          · exact Or.inr h
        · exact Or.inr h

section Edit

variable {R : Region} {s s' : Store}

/-- A frame that is entered is new. -/
theorem new_entered {p : FrameId} {entries : List (String × Value)} (he : ∀ e ∈ entries, e.2.Lies R)
    (hs : s'.scopes = entries.foldl (fun scopes e => scopes.define s.scopes.size e.1 e.2) (s.scopes.child p)) :
    (Location.frame s.scopes.size).New s s' := by
  refine ⟨Nat.lt_irrefl _, ?_⟩
  show s.scopes.size < s'.scopes.size
  rw [hs, ((s.scopes.child p).foldl_define s.scopes.size entries he).1, Scopes.size_child]
  exact Nat.lt_succ_self _

theorem Store.Edit.size_le (h : s.Edit R s') :
    s.scopes.size ≤ s'.scopes.size ∧ s.arrays.size ≤ s'.arrays.size := by
  cases h with
  | same hs ha => rw [hs, ha]; exact ⟨Nat.le_refl _, Nat.le_refl _⟩
  | define f x v _ _ hs ha => rw [hs, ha, Scopes.size_define]; exact ⟨Nat.le_refl _, Nat.le_refl _⟩
  | enter p entries _ he hs ha =>
    have hsize := ((s.scopes.child p).foldl_define s.scopes.size entries he).1
    rw [hs, ha, hsize, Scopes.size_child]
    exact ⟨Nat.le_succ _, Nat.le_refl _⟩
  | array items _ hs ha => rw [hs, ha, Array.size_push]; exact ⟨Nat.le_refl _, Nat.le_succ _⟩
  | items id change _ _ hs ha => rw [hs, ha, Array.size_modify]; exact ⟨Nat.le_refl _, Nat.le_refl _⟩

theorem Store.Edit.exists_of (h : s.Edit R s') {l : Location} (hl : s.Exists l) : s'.Exists l := by
  obtain ⟨hscopes, harrays⟩ := h.size_le
  cases l with
  | frame f => exact Nat.lt_of_lt_of_le hl hscopes
  | array id => exact Nat.lt_of_lt_of_le hl harrays

/-- A frame that is there keeps its place among the others, and outside the region it keeps its names. -/
theorem Store.Edit.frame (h : s.Edit R s') {f : FrameId} (hf : f < s.scopes.size) :
    s'.scopes.enclosing? f = s.scopes.enclosing? f ∧ (¬R (.frame f) → s'.scopes.slots f = s.scopes.slots f) := by
  cases h with
  | same hs | array _ _ hs | items _ _ _ _ hs =>
    rw [hs]
    exact ⟨rfl, fun _ => rfl⟩
  | define g x v hg _ hs =>
    rw [hs, Scopes.enclosing?_define, Scopes.slots_define]
    refine ⟨rfl, fun hn => if_neg ?_⟩
    rintro ⟨rfl, -⟩
    exact hn hg
  | enter p entries _ he hs =>
    obtain ⟨-, hparent, hother, -⟩ := (s.scopes.child p).foldl_define s.scopes.size entries he
    have hne : f ≠ s.scopes.size := Nat.ne_of_lt hf
    rw [hs, hparent, Scopes.enclosing?_child, if_neg hne, hother f hne, Scopes.slots_child]
    exact ⟨rfl, fun _ => rfl⟩

/-- Outside the region an array keeps its elements. -/
theorem Store.Edit.elements (h : s.Edit R s') {id : ArrayId} (hid : id < s.arrays.size) (hn : ¬R (.array id)) :
    s'.items id = s.items id := by
  cases h with
  | same _ ha | define _ _ _ _ _ _ ha | enter _ _ _ _ _ ha => rw [Store.items, ha, Store.items]
  | array items _ _ ha => rw [Store.items_push ha, if_neg (Nat.ne_of_lt hid)]
  | items other change ho _ _ ha =>
    rw [Store.items_modify ha, if_neg]
    rintro ⟨rfl, -⟩
    exact hn ho

/-- A frame that is made stands inside a frame of the region. -/
theorem Store.Edit.fresh (h : s.Edit R s') {f : FrameId} (hf : s.scopes.size ≤ f) (hf' : f < s'.scopes.size) :
    ∃ p, R (.frame p) ∧ s'.scopes.enclosing? f = if p < s.scopes.size then some p else none := by
  cases h with
  | same hs | array _ _ hs | items _ _ _ _ hs =>
    rw [hs] at hf'
    exact absurd hf' (Nat.not_lt.2 hf)
  | define g x v _ _ hs =>
    rw [hs, Scopes.size_define] at hf'
    exact absurd hf' (Nat.not_lt.2 hf)
  | enter p entries hp he hs =>
    obtain ⟨hsize, hparent, -, -⟩ := (s.scopes.child p).foldl_define s.scopes.size entries he
    rw [hs, hsize, Scopes.size_child] at hf'
    have hlast : f = s.scopes.size := Nat.le_antisymm (Nat.le_of_lt_succ hf') hf
    refine ⟨p, hp, ?_⟩
    rw [hs, hparent, Scopes.enclosing?_child, if_pos hlast]

/-- Names are bound to what lies in the region. -/
theorem Store.Edit.slots (h : s.Edit R s') (hs : s.Closed R) {f : FrameId} {x : String} {v : Value}
    (hf : (R.grown s s') (.frame f)) (hv : (s'.scopes.slots f).find? x = some v) : v.Lies R := by
  -- What is new holds nothing but what it was made with.
  have hold : ∀ g, ¬g < s.scopes.size → (s.scopes.slots g).find? x = none := by
    intro g hg
    have hn : ¬g < s.scopes.frames.size := hg
    simp [Scopes.slots, hn]
  have hin : ∀ {w}, (s.scopes.slots f).find? x = some w → w.Lies R := by
    intro w hw
    rcases hf with hf | ⟨hf, -⟩
    · exact hs.slots f x w hf hw
    · rw [hold f hf] at hw
      cases hw
  cases h with
  | same heq | array _ _ heq | items _ _ _ _ heq =>
    rw [heq] at hv
    exact hin hv
  | define g y w _ hw heq =>
    rw [heq, Scopes.slots_define] at hv
    split at hv
    · rw [Bindings.find?_put] at hv
      split at hv
      · cases hv
        exact hw
      · exact hin hv
    · exact hin hv
  | enter p entries _ he heq =>
    obtain ⟨-, -, hother, hnew⟩ := (s.scopes.child p).foldl_define s.scopes.size entries he
    rw [heq] at hv
    by_cases hlast : f = s.scopes.size
    · subst hlast
      rcases hnew x v hv with hv | hv
      · exact hv
      · rw [Scopes.slots_child] at hv
        exact hin hv
    · rw [hother f hlast, Scopes.slots_child] at hv
      exact hin hv

/-- Arrays hold what lies in the region. -/
theorem Store.Edit.held (h : s.Edit R s') (hs : s.Closed R) {id : ArrayId} {v : Value}
    (hid : (R.grown s s') (.array id)) (hv : v ∈ s'.items id) : v.Lies R := by
  have hin : ∀ {w}, w ∈ s.items id → w.Lies R := by
    intro w hw
    rcases hid with hid | ⟨hid, -⟩
    · exact hs.items id w hid hw
    · rw [Store.items, Array.getElem?_eq_none (Nat.not_lt.1 hid)] at hw
      cases hw.val
  cases h with
  | same _ ha | define _ _ _ _ _ _ ha | enter _ _ _ _ _ ha =>
    rw [Store.items, ha] at hv
    exact hin hv
  | array items hi _ ha =>
    rw [Store.items_push ha] at hv
    split at hv
    · exact hi v hv
    · exact hin hv
  | items other change _ hc _ ha =>
    rw [Store.items_modify ha] at hv
    split at hv
    · rename_i heq
      rw [← heq.1] at hv
      exact hc v hv
    · exact hin hv

/-- **An edit keeps a closed region closed**, with the places that it made. -/
theorem Store.Edit.closed (h : s.Edit R s') (hs : s.Closed R) : s'.Closed (R.grown s s') := by
  refine ⟨?_, ?_, ?_⟩
  · intro f x v hf hv
    exact (h.slots hs hf hv).grown
  · intro f p hf hp
    refine Or.inl ?_
    by_cases hlt : f < s.scopes.size
    · rw [(h.frame hlt).1] at hp
      rcases hf with hf | ⟨hn, -⟩
      · exact hs.parent f p hf hp
      · exact absurd hlt hn
    · obtain ⟨q, hq, heq⟩ := h.fresh (Nat.not_lt.1 hlt) (Scopes.lt_of_enclosing? hp).2
      rw [heq] at hp
      split at hp
      · cases hp
        exact hq
      · cases hp
  · intro id v hid hv
    exact (h.held hs hid hv).grown

end Edit

/-! ## Builtins -/

/-- Elements are written to the array that is named. -/
theorem location?_of_writePlace {object index : Value} {id : ArrayId} {i : Nat}
    (h : writePlace object index = .ok (id, i)) : object.location? = some (.array id) := by
  unfold writePlace at h
  split at h
  · rename_i array
    cases hp : placeOf index with
    | error f =>
      rw [hp] at h
      cases h
    | ok j =>
      rw [hp] at h
      dsimp only [bind, Except.bind] at h
      split at h
      · cases h
      · cases h
        rfl
  · cases h

/-- If an answer is a value, it lies in the region. -/
def Answer.Lies (R : Region) : Answer → Prop
  | .value v => v.Lies R
  | _ => True

theorem Answer.Plain.lies {a : Answer} (h : a.Plain) (R : Region) : a.Lies R := by
  cases a with
  | value v => exact Value.Plain.lies h R
  | _ => trivial

section Builtins

variable {R : Region} {s : Store}

/-- A new array is new. -/
theorem lies_newArray (items : Array Value) : (s.newArray items).1.Lies (R.grown s (s.newArray items).2) := by
  refine lies_array (Or.inr ⟨Nat.lt_irrefl _, ?_⟩)
  show s.arrays.size < (s.arrays.push items).size
  rw [Array.size_push]
  exact Nat.lt_succ_self _

theorem edit_newArray (items : Array Value) (hi : ∀ v ∈ items, v.Lies R) : s.Edit R (s.newArray items).2 :=
  .array items hi rfl rfl

/-- The elements after a write lie in the region of the array and of what is written. -/
theorem lies_writeAt {items : Array Value} {i : Nat} {v w : Value} (hi : ∀ v ∈ items, v.Lies R) (hv : v.Lies R)
    (hw : w ∈ Store.writeAt items i v) : w.Lies R := by
  unfold Store.writeAt at hw
  split at hw
  · rcases Array.mem_or_eq_of_mem_setIfInBounds hw with hw | rfl
    · exact hi w hw
    · exact hv
  · rcases Array.mem_push.1 hw with hw | rfl
    · rcases Array.mem_append.1 hw with hw | hw
      · exact hi w hw
      · rw [(Array.mem_replicate.1 hw).2]
        exact Value.Plain.lies (v := .null) rfl R
    · exact hv

/-- **A builtin edits the store within the region of its arguments**, and answers with a value of it or a new one. -/
theorem edit_run (hs : s.Closed R) (b : Builtin) {args : List Value} (ha : ∀ v ∈ args, v.Lies R) :
    s.Edit R (b.run args s).2 ∧ (b.run args s).1.Lies (R.grown s (b.run args s).2) := by
  have hreply : ∀ b : Builtin, b.run args s = (b.reply args s, s) →
      s.Edit R (b.run args s).2 ∧ (b.run args s).1.Lies (R.grown s (b.run args s).2) := by
    intro b hb
    rw [hb]
    exact ⟨.same rfl rfl, (plain_reply b args).lies _⟩
  cases b with
  | random =>
    simp only [Builtin.run, Builtin.randomNumber]
    split
    · exact ⟨.same rfl rfl, trivial⟩
    · split <;> exact ⟨.same rfl rfl, Value.Plain.lies (v := .number _) rfl _⟩
  | split =>
    refine ⟨edit_newArray _ fun v hv => ?_, lies_newArray _⟩
    obtain ⟨text, -, rfl⟩ := List.mem_map.1 (List.mem_toArray.1 hv)
    exact Value.Plain.lies (v := .text text) rfl R
  | arrayNew =>
    simp only [Builtin.run, Builtin.makeArray]
    split
    · exact ⟨.same rfl rfl, trivial⟩
    · split
      · refine ⟨edit_newArray _ fun v hv => ?_, lies_newArray _⟩
        rw [(Array.mem_replicate.1 hv).2]
        exact Value.Plain.lies (v := .null) rfl R
      · exact ⟨.same rfl rfl, trivial⟩
  | arrayPush =>
    have harray := lies_argument ha 0
    simp only [Builtin.run, Builtin.push]
    split
    · rename_i id hid
      rw [hid] at harray
      refine ⟨.items id (·.push (Builtin.argument args 1)) (harray _ rfl) (fun v hv => ?_) rfl rfl, harray.grown⟩
      rcases Array.mem_push.1 hv with hv | rfl
      · exact hs.items id v (harray _ rfl) hv
      · exact lies_argument ha 1
    · exact ⟨.same rfl rfl, Value.Plain.lies (v := .null) rfl _⟩
    · exact ⟨.same rfl rfl, trivial⟩
  | arrayPop =>
    have harray := lies_argument ha 0
    simp only [Builtin.run, Builtin.pop]
    split
    · rename_i id hid
      rw [hid] at harray
      have hitems : ∀ v ∈ s.items id, v.Lies R := fun v => hs.items id v (harray _ rfl)
      refine ⟨.items id Array.pop (harray _ rfl) (fun v hv => ?_) rfl rfl, Value.Lies.grown ?_⟩
      · have hv : v ∈ (s.items id).toList.dropLast := by
          rw [← Array.toList_pop]
          exact hv.val
        exact hitems v (Array.mem_toList_iff.1 ((List.dropLast_sublist _).subset hv))
      · cases hb : (s.items id).back? with
        | none => exact Value.Plain.lies (v := .null) rfl R
        | some v => exact hitems v (Array.mem_of_back? hb)
    · exact ⟨.same rfl rfl, Value.Plain.lies (v := .null) rfl _⟩
    · exact ⟨.same rfl rfl, trivial⟩
  | _ => exact hreply _ rfl

end Builtins

/-! ## What a machine has in hand -/

namespace Pending

/-- The values that a piece of pending work has in hand; the rest of a program has the latest value. -/
def holds (latest : Value) : Pending → List Value
  | program _ _ => [latest]
  | w => w.values

/-- The frame that a piece of pending work comes back to. -/
def outer? : Pending → Option FrameId
  | block outer _ | call outer _ => some outer
  | _ => none

/-- What a piece of pending work has in hand lies in the region. -/
structure Lies (R : Region) (latest : Value) (w : Pending) : Prop where
  values : ∀ v ∈ w.holds latest, v.Lies R
  outer : ∀ f, w.outer? = some f → R (.frame f)

end Pending

namespace Machine

/-- The region is closed, and what the work above `base` has in hand lies in it. -/
structure Keeps (R : Region) (base : List Pending) (m : Machine) : Prop where
  store : m.store.Closed R
  globals : R (.frame Store.globals)
  here : R (.frame m.here)
  work : ∃ inner, m.pending = inner ++ base ∧ ∀ w ∈ inner, w.Lies R m.latest

/-- So it is with the focus as well. -/
structure Ranges (R : Region) (base : List Pending) (m : Machine) : Prop extends Keeps R base m where
  focus : ∀ v ∈ m.focus.values, v.Lies R

/-- What a machine with the store `s` may become: the store is edited within the region, and what is in hand then lies
in the region or is new. -/
structure Roams (R : Region) (base : List Pending) (s : Store) (m' : Machine) : Prop where
  edit : s.Edit R m'.store
  here : (R.grown s m'.store) (.frame m'.here)
  work : ∃ inner, m'.pending = inner ++ base ∧ ∀ w ∈ inner, w.Lies (R.grown s m'.store) m'.latest
  focus : ∀ v ∈ m'.focus.values, v.Lies (R.grown s m'.store)

section Operations

variable {R : Region} {base : List Pending} {m m' : Machine}

/-- After it, the machine ranges over the region and what is new. -/
theorem Roams.ranges {s : Store} (h : Roams R base s m') (hs : s.Closed R) (hg : R (.frame Store.globals)) :
    Ranges (R.grown s m'.store) base m' := ⟨⟨h.edit.closed hs, Or.inl hg, h.here, h.work⟩, h.focus⟩

theorem lies_nil {R : Region} : ∀ v ∈ ([] : List Value), v.Lies R := List.forall_mem_nil _

theorem lies_value {R : Region} {v : Value} (h : v.Lies R) : ∀ u ∈ [v], u.Lies R := by
  intro u hu
  rw [List.mem_singleton.1 hu]
  exact h

theorem lies_plain (R : Region) {v : Value} (h : v.Plain) : ∀ u ∈ [v], u.Lies R := lies_value (h.lies R)

/-- A piece of pending work that comes back to no frame. -/
theorem lies_work {R : Region} {latest : Value} {w : Pending} (ho : w.outer? = none)
    (hv : ∀ v ∈ w.holds latest, v.Lies R) : w.Lies R latest := by
  refine ⟨hv, ?_⟩
  intro f hf
  rw [ho] at hf
  cases hf

theorem lies_grown {R : Region} {s s' : Store} {latest : Value} {w : Pending} (h : w.Lies R latest) :
    w.Lies (R.grown s s') latest :=
  ⟨fun v hv => (h.values v hv).grown, fun f hf => Or.inl (h.outer f hf)⟩

/-- The rest of a program takes hold of another latest value. -/
theorem lies_latest {R : Region} {latest latest' : Value} {w : Pending} (h : w.Lies R latest) (hl : latest'.Lies R) :
    w.Lies R latest' := by
  refine ⟨?_, h.outer⟩
  have hvalues := h.values
  cases w with
  | program index rest => exact lies_value hl
  | _ => exact hvalues

/-- The machine stays where it is, edits the store, and has more to do. -/
theorem Keeps.roams (h : Keeps R base m) (ws : List Pending) (he : m.store.Edit R m'.store) (hh : m'.here = m.here)
    (hl : m'.latest = m.latest) (hp : m'.pending = ws ++ m.pending) (hw : ∀ w ∈ ws, w.Lies R m.latest)
    (hf : ∀ v ∈ m'.focus.values, v.Lies (R.grown m.store m'.store)) : Roams R base m.store m' := by
  obtain ⟨inner, hi, hin⟩ := h.work
  refine ⟨he, ?_, ⟨ws ++ inner, ?_, ?_⟩, hf⟩
  · rw [hh]
    exact Or.inl h.here
  · rw [hp, hi, List.append_assoc]
  · intro w hmem
    rw [hl]
    rcases List.mem_append.1 hmem with hmem | hmem
    · exact lies_grown (hw w hmem)
    · exact lies_grown (hin w hmem)

/-- It edits the store and has nothing more to do. -/
theorem Keeps.edits (h : Keeps R base m) (he : m.store.Edit R m'.store) (hh : m'.here = m.here)
    (hl : m'.latest = m.latest) (hp : m'.pending = m.pending)
    (hf : ∀ v ∈ m'.focus.values, v.Lies (R.grown m.store m'.store)) : Roams R base m.store m' := by
  refine h.roams [] he hh hl hp ?_ hf
  intro w hw
  cases hw

theorem Keeps.turn (h : Keeps R base m) {f : Focus} (hf : ∀ v ∈ f.values, v.Lies R) :
    Roams R base m.store (m.turn f) :=
  h.edits (.same rfl rfl) rfl rfl rfl fun v hv => (hf v hv).grown

theorem Keeps.push (h : Keeps R base m) {f : Focus} {w : Pending} (hf : ∀ v ∈ f.values, v.Lies R)
    (hw : w.Lies R m.latest) : Roams R base m.store (m.push f w) := by
  refine h.roams [w] (.same rfl rfl) rfl rfl rfl ?_ fun v hv => (hf v hv).grown
  intro u hu
  rw [List.mem_singleton.1 hu]
  exact hw

/-- An expression is looked at, and the work that waits for it has these values. -/
theorem Keeps.await (h : Keeps R base m) (e : Expr) {w : Pending} (ho : w.outer? = none)
    (hv : ∀ v ∈ w.holds m.latest, v.Lies R) : Roams R base m.store (m.push (.eval e) w) :=
  h.push lies_nil (lies_work ho hv)

theorem Keeps.raise (h : Keeps R base m) (span : Span) (f : RuntimeFault) : Roams R base m.store (m.raise span f) :=
  h.turn lies_nil

theorem Keeps.settle (h : Keeps R base m) (span : Span) {r : Except RuntimeFault Value}
    (hr : ∀ v, r = .ok v → v.Lies R) : Roams R base m.store (m.settle span r) := by
  cases r with
  | ok v => exact h.turn (lies_value (hr v rfl))
  | error f => exact h.raise span f

/-- What operators make of values is plain. -/
theorem Keeps.settle_plain (h : Keeps R base m) (span : Span) {r : Except RuntimeFault Value} (hr : Plainly r) :
    Roams R base m.store (m.settle span r) := by
  refine h.settle span ?_
  rintro v rfl
  exact Value.Plain.lies hr R

theorem Keeps.request (h : Keeps R base m) (keep : Bool) (span : Span) (prompt : String) :
    Roams R base m.store (m.request keep span prompt) := by
  unfold Machine.request
  split
  · exact h.turn lies_nil
  · exact h.push lies_nil (lies_work rfl lies_nil)

theorem Keeps.runBuiltin (h : Keeps R base m) (b : Builtin) {args : List Value} (ha : ∀ v ∈ args, v.Lies R)
    (span : Span) : Roams R base m.store (m.runBuiltin b args span).1 := by
  obtain ⟨hedit, hanswer⟩ := edit_run h.store b ha
  show Roams R base m.store (takeAnswer { m with store := (b.run args m.store).2 } span (b.run args m.store).1).1
  cases hr : (b.run args m.store).1 with
  | value v =>
    rw [hr] at hanswer
    exact h.edits hedit rfl rfl rfl (lies_value hanswer)
  | write | writeLine | clear => exact h.edits hedit rfl rfl rfl (lies_plain (v := .null) _ rfl)
  | ask prompt =>
    simp only [takeAnswer, Machine.request]
    split
    · exact h.edits hedit rfl rfl rfl lies_nil
    · refine h.roams [.reply true span] hedit rfl rfl rfl ?_ lies_nil
      intro w hw
      rw [List.mem_singleton.1 hw]
      exact lies_work rfl lies_nil
  | fault f => exact h.edits hedit rfl rfl rfl lies_nil

/-- A new frame is entered, inside one of the region, and the frame to come back to is kept. -/
theorem Keeps.enters (h : Keeps R base m) (p : FrameId) (entries : List (String × Value)) {w : Pending}
    (hp : R (.frame p)) (he : ∀ e ∈ entries, e.2.Lies R) (hw : w.outer? = some m.here) (hv : w.holds m.latest = [])
    (hs : m'.store.scopes = entries.foldl (fun scopes e => scopes.define m.store.scopes.size e.1 e.2)
      (m.store.scopes.child p))
    (ha : m'.store.arrays = m.store.arrays) (hh : m'.here = m.store.scopes.size) (hl : m'.latest = m.latest)
    (hpend : m'.pending = w :: m.pending) (hf : m'.focus.values = []) : Roams R base m.store m' := by
  obtain ⟨inner, hi, hin⟩ := h.work
  have hedit : m.store.Edit R m'.store := .enter p entries hp he hs ha
  refine ⟨hedit, Or.inr ?_, ⟨w :: inner, ?_, ?_⟩, ?_⟩
  · rw [hh]
    exact new_entered he hs
  · rw [hpend, hi, List.cons_append]
  · intro u hu
    rw [hl]
    rcases List.mem_cons.1 hu with rfl | hu
    · refine ⟨?_, ?_⟩
      · rw [hv]
        exact lies_nil
      · intro f hf
        rw [hw] at hf
        cases hf
        exact Or.inl h.here
    · exact lies_grown (hin u hu)
  · rw [hf]
    exact lies_nil

/-- A variable is given a value in a frame of the region. -/
theorem Keeps.assigns (h : Keeps R base m) {f : Focus} (x : String) {v : Value} (hf : ∀ v ∈ f.values, v.Lies R)
    (hv : v.Lies R) : Roams R base m.store ((m.turn f).assignVariable x v) := by
  refine h.edits (.define _ x v ?_ hv rfl rfl) rfl rfl rfl fun v hv => (hf v hv).grown
  cases hx : (m.turn f).store.scopes.home? (m.turn f).here x with
  | some g => exact h.store.home? h.here hx
  | none =>
    dsimp only
    cases (m.turn f).settings.assignScope with
    | current => exact h.here
    | global => exact h.globals

/-- The machine comes back to a frame of the region, or keeps another latest value. -/
theorem Keeps.comes (h : Keeps R base m) (hs : m'.store = m.store) (hh : R (.frame m'.here))
    (hp : m'.pending = m.pending) (hl : m'.latest = m.latest ∨ m'.latest.Lies R)
    (hf : ∀ v ∈ m'.focus.values, v.Lies R) : Roams R base m.store m' := by
  obtain ⟨inner, hi, hin⟩ := h.work
  refine ⟨.same (by rw [hs]) (by rw [hs]), Or.inl hh, ⟨inner, hp.trans hi, ?_⟩, fun v hv => (hf v hv).grown⟩
  intro w hw
  rcases hl with hl | hl
  · rw [hl]
    exact lies_grown (hin w hw)
  · exact lies_grown (lies_latest (hin w hw) hl)

end Operations

/-! ## One step -/

section Step

variable {R : Region} {base : List Pending} {m : Machine}

theorem Keeps.startStatement (h : Keeps R base m) (s : Stmt) : Roams R base m.store (m.startStatement s).1 := by
  unfold Machine.startStatement
  split
  · exact h.turn lies_nil
  · split <;> exact h.turn lies_nil

/-- A block is entered inside the current frame, and a function that is declared keeps the current frame. -/
theorem Keeps.execStatement (h : Keeps R base m) (s : Stmt) : Roams R base m.store (m.execStatement s) := by
  cases s with
  | expr e _ | print e _ _ | assign _ e _ | branch e _ _ _ | loop e _ _ => exact h.await e rfl lies_nil
  | input keyword prompt span =>
    cases prompt with
    | none => exact h.request false span _
    | some e => exact h.await e rfl lies_nil
  | block body span =>
    exact h.enters m.here [] (w := .block m.here body) h.here (List.forall_mem_nil _) rfl rfl rfl rfl
      rfl rfl rfl rfl
  | function x params body span =>
    refine h.edits (.define m.here x (.closure ⟨m.store.closures, x, params, body, m.here⟩) h.here ?_ rfl rfl)
      rfl rfl rfl lies_nil
    exact lies_closure h.here
  | leave value span =>
    cases value with
    | none => exact h.turn (lies_plain (v := .null) R rfl)
    | some e => exact h.await e rfl lies_nil

theorem Keeps.evalExpression (h : Keeps R base m) (e : Expr) : Roams R base m.store (m.evalExpression e) := by
  cases e with
  | literal value span => exact h.turn (lies_plain R (plain_ofLiteral value))
  | name x span =>
    simp only [Machine.evalExpression]
    split
    · rename_i v hv
      exact h.turn (lies_value (h.store.get? h.here hv))
    · exact h.raise span _
  | group inner span => exact h.turn lies_nil
  | array items span =>
    cases items with
    | nil =>
      have hedit : m.store.Edit R (m.store.newArray #[]).2 := edit_newArray #[] (by simp)
      exact h.edits hedit rfl rfl rfl (lies_value (lies_newArray #[]))
    | cons e rest => exact h.await e rfl lies_nil
  | assign _ e _ | binary _ e _ _ | logical _ e _ _ | unary _ e _ | call e _ _ | property e _ _ | element e _ _
  | setProperty e _ _ _ | setElement e _ _ _ => exact h.await e rfl lies_nil

/-- A call enters a frame inside the one that its function was declared in. -/
theorem Keeps.applyValue (h : Keeps R base m) {callee : Value} {args : List Value} (hc : callee.Lies R)
    (ha : ∀ v ∈ args, v.Lies R) (span : Span) : Roams R base m.store (m.applyValue callee args span).1 := by
  unfold Machine.applyValue
  split
  · split
    · split
      · exact h.runBuiltin _ ha span
      · exact h.raise span _
    · exact h.runBuiltin _ ha span
  · rename_i f
    split
    · exact h.raise span _
    · split
      · exact h.raise span _
      · have hargs : ∀ e ∈ f.params.zip args, e.2.Lies R := fun e he => ha e.2 (List.of_mem_zip he).2
        exact h.enters f.home _ (w := .call m.here f.body) (hc _ rfl) hargs rfl rfl rfl rfl rfl rfl rfl rfl
  · exact h.raise span _

/-- A value is handed to pending work. -/
theorem Keeps.takeValue (h : Keeps R base m) {v : Value} (hv : v.Lies R) {w : Pending} (hw : w.Lies R m.latest) :
    Roams R base m.store (m.takeValue v w).1 := by
  have hvalues := hw.values
  cases w with
  | discard =>
    simp only [Machine.takeValue]
    split
    · exact h.comes rfl h.here rfl (Or.inr hv) lies_nil
    · exact h.turn lies_nil
  | write newline => cases newline <;> exact h.turn lies_nil
  | prompt span => exact h.request false span _
  | bind x => exact h.assigns x (f := .done) lies_nil hv
  | assign x => exact h.assigns x (f := .give v) (lies_value hv) hv
  | choose yes no =>
    simp only [Machine.takeValue]
    split
    · exact h.turn lies_nil
    · split <;> exact h.turn lies_nil
  | test condition body =>
    simp only [Machine.takeValue]
    split
    · exact h.push lies_nil (lies_work rfl lies_nil)
    · exact h.turn lies_nil
  | returning => exact h.turn (lies_value hv)
  | right op e span => exact h.await e rfl (lies_value hv)
  | combine op left span => exact h.settle_plain span (plainly_binary op left v)
  | logical op e =>
    simp only [Machine.takeValue]
    split
    · exact h.turn (lies_value hv)
    · exact h.turn lies_nil
  | unary op span => exact h.settle_plain span (plainly_unary op v)
  | callee args span =>
    cases args with
    | nil => exact h.turn (lies_value hv)
    | cons e rest => exact h.await e rfl (lies_value hv)
  | argument f before rest span =>
    obtain ⟨hf, hbefore⟩ := List.forall_mem_cons.1 hvalues
    have hall : ∀ u ∈ f :: v :: before, u.Lies R :=
      List.forall_mem_cons.2 ⟨hf, List.forall_mem_cons.2 ⟨hv, hbefore⟩⟩
    cases rest with
    | nil => exact h.turn fun u hu => hall u (by simpa [Focus.values, or_comm] using hu)
    | cons e rest => exact h.await e rfl hall
  | item before rest =>
    have hall : ∀ u ∈ v :: before, u.Lies R := List.forall_mem_cons.2 ⟨hv, hvalues⟩
    cases rest with
    | nil =>
      have hedit := edit_newArray (s := m.store) (v :: before).reverse.toArray fun u hu =>
        hall u (List.mem_reverse.1 (List.mem_toArray.1 hu))
      exact h.edits hedit rfl rfl rfl (lies_value (lies_newArray _))
    | cons e rest => exact h.await e rfl hall
  | property x span => exact h.settle_plain span (plainly_readProperty v x)
  | object e span => exact h.await e rfl (lies_value hv)
  | index object span =>
    have hobject : object.Lies R := hvalues object (by simp [Pending.holds, Pending.values])
    exact h.settle span fun u hu => h.store.readElement hobject hu
  | setProperty x span => cases v <;> exact h.raise span _
  | setObject e value span =>
    simp only [Machine.takeValue]
    split
    · exact h.raise span _
    · exact h.await e rfl (lies_value hv)
  | setIndex object e span =>
    have hobject : object.Lies R := hvalues object (by simp [Pending.holds, Pending.values])
    exact h.await e rfl (List.forall_mem_cons.2 ⟨hobject, lies_value hv⟩)
  | setValue object index span =>
    simp only [Machine.takeValue]
    split
    · rename_i id i hplace
      have hid : R (.array id) := by
        have hobject : object.Lies R := hvalues object (by simp [Pending.holds, Pending.values])
        exact hobject _ (location?_of_writePlace hplace)
      refine h.edits (.items id (Store.writeAt · i v) hid (fun u hu => ?_) rfl rfl) rfl rfl rfl
        fun u hu => (lies_value hv u hu).grown
      exact lies_writeAt (fun u hu => h.store.items id u hid hu) hv hu
    · exact h.raise span _
  | reply | block | again | call | program => exact h.turn (lies_value hv)

/-- After a statement the machine goes on with a part of the pending work, or comes back to the frame that it kept. -/
theorem Ranges.afterStatement (h : Ranges R base m) {w : Pending} (hw : w.Lies R m.latest) :
    Roams R base m.store (m.afterStatement w) := by
  have hk := h.toKeeps
  cases w with
  | block outer rest =>
    cases rest with
    | nil => exact hk.comes rfl (hw.outer outer rfl) rfl (Or.inl rfl) h.focus
    | cons s rest => exact hk.push lies_nil ⟨lies_nil, hw.outer⟩
  | call outer rest =>
    cases rest with
    | nil => exact hk.comes rfl (hw.outer outer rfl) rfl (Or.inl rfl) (lies_plain (v := .null) R rfl)
    | cons s rest => exact hk.push lies_nil ⟨lies_nil, hw.outer⟩
  | again condition body => exact hk.await condition rfl lies_nil
  | program index rest =>
    cases rest with
    | nil => exact hk.comes rfl h.here rfl (Or.inr (Value.Plain.lies (v := .null) rfl R)) hw.values
    | cons s rest =>
      refine hk.roams [.program (index + 1) rest] (.same rfl rfl) rfl rfl rfl ?_ lies_nil
      intro u hu
      rw [List.mem_singleton.1 hu]
      exact lies_work rfl hw.values
  | _ => exact hk.turn h.focus

theorem Ranges.leaveThrough (h : Ranges R base m) {v : Value} (hv : v.Lies R) {w : Pending} (hw : w.Lies R m.latest) :
    Roams R base m.store (m.leaveThrough v w) := by
  have hk := h.toKeeps
  cases w with
  | block outer rest => exact hk.comes rfl (hw.outer outer rfl) rfl (Or.inl rfl) h.focus
  | call outer rest => exact hk.comes rfl (hw.outer outer rfl) rfl (Or.inl rfl) (lies_value hv)
  | program index rest =>
    exact hk.comes rfl h.here rfl (Or.inr (Value.Plain.lies (v := .null) rfl R)) hw.values
  | _ => exact hk.turn h.focus

theorem Ranges.failThrough (h : Ranges R base m) {w : Pending} (hw : w.Lies R m.latest) :
    Roams R base m.store (m.failThrough w) := by
  have hk := h.toKeeps
  cases w with
  | block outer rest | call outer rest => exact hk.comes rfl (hw.outer outer rfl) rfl (Or.inl rfl) h.focus
  | _ => exact hk.turn h.focus

/-- The innermost piece of pending work above the base, and the machine without it. -/
theorem Ranges.pop (h : Ranges R base m) (ha : Above base m) (hd : m.focus.isDue = true) {w : Pending}
    {rest : List Pending} (hp : m.pending = w :: rest) :
    w.Lies R m.latest ∧ Ranges R base { m with pending := rest } := by
  obtain ⟨inner, hi, hin⟩ := h.work
  obtain ⟨more, rfl, rfl⟩ := ha.top hi hd hp
  refine ⟨hin w (by simp), ⟨h.store, h.globals, h.here, more, rfl, ?_⟩, h.focus⟩
  intro u hu
  exact hin u (by simp [hu])

/-- **One step forges no reference.** -/
theorem Ranges.step (h : Ranges R base m) (ha : Above base m) : Roams R base m.store m.step.1 := by
  have hk := h.toKeeps
  have hvalues := h.focus
  cases hm : m.focus with
  | start s =>
    simp only [Machine.step, hm]
    exact hk.startStatement s
  | exec s =>
    simp only [Machine.step, hm]
    exact hk.execStatement s
  | eval e =>
    simp only [Machine.step, hm]
    exact hk.evalExpression e
  | apply callee args span =>
    rw [hm] at hvalues
    obtain ⟨hcallee, hargs⟩ := List.forall_mem_cons.1 hvalues
    simp only [Machine.step, hm]
    exact hk.applyValue hcallee hargs span
  | await prompt =>
    simp only [Machine.step, hm]
    exact hk.turn h.focus
  | give v =>
    cases hp : m.pending with
    | nil =>
      simp only [Machine.step, hm, hp]
      exact hk.turn h.focus
    | cons w rest =>
      obtain ⟨hw, hr⟩ := h.pop ha (by rw [hm]; rfl) hp
      rw [hm] at hvalues
      rw [step_give hm hp]
      exact hr.toKeeps.takeValue (hvalues v (by simp [Focus.values])) hw
  | done =>
    cases hp : m.pending with
    | nil =>
      simp only [Machine.step, hm, hp]
      exact hk.turn h.focus
    | cons w rest =>
      obtain ⟨hw, hr⟩ := h.pop ha (by rw [hm]; rfl) hp
      rw [step_done hm hp]
      exact hr.afterStatement hw
  | leave v =>
    cases hp : m.pending with
    | nil =>
      simp only [Machine.step, hm, hp]
      exact hk.turn h.focus
    | cons w rest =>
      obtain ⟨hw, hr⟩ := h.pop ha (by rw [hm]; rfl) hp
      rw [hm] at hvalues
      rw [step_leave hm hp]
      exact hr.leaveThrough (hvalues v (by simp [Focus.values])) hw
  | fail d =>
    cases hp : m.pending with
    | nil =>
      simp only [Machine.step, hm, hp]
      exact hk.turn h.focus
    | cons w rest =>
      obtain ⟨hw, hr⟩ := h.pop ha (by rw [hm]; rfl) hp
      rw [step_fail hm hp]
      exact hr.failThrough hw

end Step

/-! ## Moves -/

section Moves

variable {R : Region} {base : List Pending} {m m' : Machine} {s : Store}

/-- A decision about an event changes nothing in hand. -/
theorem Roams.heed (h : Roams R base s m') (v : Verdict) : Roams R base s (m'.heed v) := by
  have hs : Roams R base s (if v.stop then m'.stop else m') := by
    split
    · exact ⟨h.edit, h.here, h.work, h.focus⟩
    · exact h
  unfold Machine.heed
  cases v.course with
  | proceed | hold => exact hs
  | refuse d => exact ⟨hs.edit, hs.here, hs.work, lies_nil⟩

/-- A line that is read is text, and a cancelled read is a failure. -/
theorem Ranges.answer (h : Ranges R base m) (ha : Above base m) (reply : Reply) :
    Roams R base m.store (m.answer reply) := by
  unfold Machine.answer
  split
  · rename_i keep span rest hm hp
    have hr := (h.pop ha (by rw [hm]; rfl) hp).2.toKeeps
    cases reply with
    | line text =>
      dsimp only
      split
      · exact hr.turn (lies_plain (v := .text text) R rfl)
      · exact hr.turn lies_nil
    | cancelled =>
      dsimp only
      split <;> exact hr.turn lies_nil
  · exact h.toKeeps.turn h.focus

/-- **A move forges no reference**: it edits the store within the region of what is in hand, and takes hold of nothing
but what lies there or is new. -/
theorem Ranges.move (h : Ranges R base m) (ha : Above base m) {xs : List Shown} (hm : Move m xs m') :
    Roams R base m.store m' := by
  cases hm with
  | step hs =>
    have := h.step ha
    rwa [hs] at this
  | event v hs =>
    have := h.step ha
    rw [hs] at this
    exact this.heed v
  | answer r _ => exact h.answer ha r
  | flag stopped => exact h.toKeeps.comes rfl h.here rfl (Or.inl rfl) h.focus

end Moves

end Machine

end StepScript
