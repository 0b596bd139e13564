import StepScript.Proofs.Machine.Names
import StepScript.Proofs.Machine.Rooted

/-!
# Where an assignment goes, and from where it is seen

Many frames share the frames around them, so one change of a name is seen from some frames and hidden from others by a
nearer binding of the name.

* `Scopes.Sees x f g` says that the way from `f` outward comes to `g` before any other frame that binds `x`, and
  `Scopes.Nearest x f g` that `g` binds it as well; there is at most one such frame (`Nearest.unique`), and it is the one
  that `home?` finds (`home?_eq_some_iff`).
* `Scopes.Rebinds g x v s'` says that `s'` differs in one slot. It is seen from the frames that see `g`
  (`Rebinds.inside`), and all else reads as before (`Rebinds.outside`).
* A machine that assigns a name rebinds one slot, and can read it back: every way outward ends at the global frame, so a
  name that is bound there is seen from wherever it is not bound nearer (`Chain.sees`).
-/

namespace StepScript

namespace Scopes

/-- The way from a frame outward comes to a frame before any other that binds the name. -/
inductive Sees (s : Scopes) (x : String) : FrameId → FrameId → Prop
  | here (f : FrameId) : Sees s x f f
  | outward {f p g : FrameId} : ¬s.Binds f x → s.enclosing? f = some p → Sees s x p g → Sees s x f g

/-- The nearest frame, from `f` outward, that binds the name. -/
structure Nearest (s : Scopes) (x : String) (f g : FrameId) : Prop where
  sees : s.Sees x f g
  binds : s.Binds g x

instance (s : Scopes) (f : FrameId) (x : String) : Decidable (s.Binds f x) :=
  inferInstanceAs (Decidable (_ = true))

section Sees

variable {s s' : Scopes} {x : String} {f g h : FrameId}

theorem Binds.lt (hb : s.Binds f x) : f < s.size := by
  refine Nat.lt_of_not_le fun hle => ?_
  rw [Binds, slots_of_le hle] at hb
  cases hb

theorem not_binds_iff : ¬s.Binds f x ↔ (s.slots f).find? x = none := by
  simp [Binds, Bindings.contains]

theorem Sees.le (hs : s.Sees x f g) : g ≤ f := by
  induction hs with
  | here => exact Nat.le_refl _
  | outward _ hp _ ih => exact Nat.le_trans ih (Nat.le_of_lt (lt_of_enclosing? hp).1)

/-- A frame that binds a name hides all around it. -/
theorem Sees.eq_of_binds (hs : s.Sees x f g) (hb : s.Binds f x) : g = f := by
  cases hs with
  | here => rfl
  | outward hn _ _ => exact absurd hb hn

/-- **A name has one nearest frame.** -/
theorem Nearest.unique (hg : s.Nearest x f g) (hh : s.Nearest x f h) : g = h := by
  obtain ⟨hs, hb⟩ := hg
  induction hs with
  | here => exact (hh.sees.eq_of_binds hb).symm
  | outward hn hp _ ih =>
    obtain ⟨hs', hb'⟩ := hh
    cases hs' with
    | here => exact absurd hb' hn
    | outward _ hp' hs' =>
      rw [hp] at hp'
      cases hp'
      exact ih ⟨hs', hb'⟩ hb

theorem home?_of_binds (hb : s.Binds f x) : s.home? f x = some f := by
  rw [home?_eq]
  exact if_pos hb

theorem home?_of_not_binds (hn : ¬s.Binds f x) : s.home? f x = (s.enclosing? f).bind fun p => s.home? p x := by
  rw [home?_eq]
  exact if_neg hn

theorem nearest_of_home? (hh : s.home? f x = some g) : s.Nearest x f g := by
  induction f using Nat.strongRecOn with
  | ind f ih =>
    by_cases hb : s.Binds f x
    · rw [home?_of_binds hb] at hh
      cases hh
      exact ⟨.here _, hb⟩
    · rw [home?_of_not_binds hb] at hh
      obtain ⟨p, hp, hh⟩ := Option.bind_eq_some_iff.1 hh
      obtain ⟨hs, hg⟩ := ih p (lt_of_enclosing? hp).1 hh
      exact ⟨.outward hb hp hs, hg⟩

theorem Nearest.home? (hg : s.Nearest x f g) : s.home? f x = some g := by
  obtain ⟨hs, hb⟩ := hg
  induction hs with
  | here => exact home?_of_binds hb
  | outward hn hp _ ih =>
    rw [home?_of_not_binds hn, hp]
    exact ih hb

/-- **A name is found in the nearest frame that binds it.** -/
theorem home?_eq_some_iff : s.home? f x = some g ↔ s.Nearest x f g := ⟨nearest_of_home?, Nearest.home?⟩

theorem isDefined_iff_exists : s.isDefined f x = true ↔ ∃ g, s.Nearest x f g := by
  rw [isDefined, Option.isSome_iff_exists]
  exact exists_congr fun g => home?_eq_some_iff

theorem isDefined_iff_get? : s.isDefined f x = true ↔ (s.get? f x).isSome = true := by
  rw [isDefined, get?]
  cases hh : s.home? f x with
  | none => simp
  | some g =>
    have hc : ((s.slots g).find? x).isSome = true := contains_of_home? hh
    simp [hc]

theorem isDefined_iff_assign? (v : Value) : s.isDefined f x = true ↔ (s.assign? f x v).isSome = true := by
  rw [isDefined, assign?]
  cases s.home? f x <;> simp

/-- What a frame sees goes by the names that the frames bind and by the frames around them only. -/
theorem Sees.congr (hparent : ∀ k, s'.enclosing? k = s.enclosing? k) (hbinds : ∀ k, k ≠ g → s'.Binds k x → s.Binds k x)
    (hs : s.Sees x f g) : s'.Sees x f g := by
  induction hs with
  | here => exact .here _
  | outward hn hp hs ih =>
    have hlt := Nat.lt_of_le_of_lt hs.le (lt_of_enclosing? hp).1
    exact .outward (fun hb => hn (hbinds _ (Nat.ne_of_gt hlt) hb)) ((hparent _).trans hp) (ih hbinds)

end Sees

/-! ## One slot is changed -/

/-- The frames `s'` are the frames `s` with one slot changed: the name `x` of the frame `g` has the value `v`. -/
structure Rebinds (s : Scopes) (g : FrameId) (x : String) (v : Value) (s' : Scopes) : Prop where
  size : s'.size = s.size
  parents : ∀ h, s'.enclosing? h = s.enclosing? h
  slot : (s'.slots g).find? x = some v
  others : ∀ h y, ¬(h = g ∧ y = x) → (s'.slots h).find? y = (s.slots h).find? y

section Rebinds

variable {s s' : Scopes} {x : String} {v : Value} {f g h : FrameId}

theorem rebinds_define (hg : g < s.size) (x : String) (v : Value) : s.Rebinds g x v (s.define g x v) where
  size := size_define s g x v
  parents := enclosing?_define s g x v
  slot := by rw [slots_define, if_pos ⟨rfl, hg⟩, Bindings.find?_put, if_pos rfl]
  others h y hne := by
    rw [slots_define]
    split
    · rename_i hh
      rw [Bindings.find?_put, if_neg fun hy => hne ⟨hh.1.symm, hy⟩]
    · rfl

theorem Rebinds.binds_iff (hr : s.Rebinds g x v s') (k : FrameId) : s'.Binds k x ↔ s.Binds k x ∨ k = g := by
  by_cases hk : k = g
  · simp [Binds, Bindings.contains, hk, hr.slot]
  · simp [Binds, Bindings.contains, hk, hr.others k x fun h => hk h.1]

/-- **The slot is the nearest one for exactly the frames that see it.** -/
theorem Rebinds.nearest_iff (hr : s.Rebinds g x v s') : s'.Nearest x h g ↔ s.Sees x h g := by
  constructor
  · rintro ⟨hs, -⟩
    exact hs.congr (fun k => (hr.parents k).symm) fun k _ hb => (hr.binds_iff k).2 (Or.inl hb)
  · intro hs
    refine ⟨hs.congr hr.parents fun k hk hb => ?_, (hr.binds_iff g).2 (Or.inr rfl)⟩
    exact ((hr.binds_iff k).1 hb).resolve_right hk

/-- **The frames that see the slot read the new value.** -/
theorem Rebinds.inside (hr : s.Rebinds g x v s') (hs : s.Sees x h g) : s'.get? h x = some v := by
  rw [get?, (hr.nearest_iff.2 hs).home?]
  exact hr.slot

/-- **All else reads as before.** -/
theorem Rebinds.outside (hr : s.Rebinds g x v s') {y : String} (hn : ¬(y = x ∧ s.Sees x h g)) :
    s'.get? h y = s.get? h y := by
  induction h using Nat.strongRecOn with
  | ind h ih =>
    have hslot : ¬(h = g ∧ y = x) := by
      rintro ⟨rfl, rfl⟩
      exact hn ⟨rfl, .here _⟩
    rw [get?_eq s', get?_eq s, hr.others h y hslot, hr.parents h]
    cases hx : (s.slots h).find? y with
    | some w => simp
    | none =>
      cases hp : s.enclosing? h with
      | none => rfl
      | some p =>
        refine ih p (lt_of_enclosing? hp).1 ?_
        rintro ⟨rfl, hs⟩
        exact hn ⟨rfl, .outward (not_binds_iff.2 hx) hp hs⟩

theorem rebinds_of_assign? (ha : s.assign? f x v = some s') : ∃ g, s.Nearest x f g ∧ s.Rebinds g x v s' := by
  unfold assign? at ha
  split at ha
  · rename_i g hg
    cases ha
    exact ⟨g, nearest_of_home? hg, rebinds_define (lt_of_home? hg) x v⟩
  · cases ha

end Rebinds

/-- **The laws of a tree of frames**, however it was put together. The test for a name, reading it and assigning it go
the same way outward, so one succeeds where the others do, which is where some frame on the way binds the name. If there
is none, an assignment gives no new tree. If there is one, it changes the slot of the name in the nearest such frame and
nothing else: from the frames that find the name there it reads as the new value, and any other name from any other frame
as before. Defining a name changes its slot in the frame that is given, and this is seen from exactly the frames from
which the way outward comes to that frame before another that binds the name. -/
theorem frames_obey_their_laws (s : Scopes) (f : FrameId) (x : String) (v : Value) :
    (s.isDefined f x = ((s.slots f).contains x || (s.enclosing? f).any fun p => s.isDefined p x) ∧
      s.get? f x = ((s.slots f).find? x).or ((s.enclosing? f).bind fun p => s.get? p x) ∧
      s.assign? f x v =
        if (s.slots f).contains x then some (s.define f x v) else (s.enclosing? f).bind fun p => s.assign? p x v) ∧
    ((s.isDefined f x = true ↔ (s.get? f x).isSome = true) ∧
      (s.isDefined f x = true ↔ (s.assign? f x v).isSome = true) ∧
      (s.isDefined f x = true ↔ ∃ g, s.Nearest x f g)) ∧
    (∀ s', s.assign? f x v = some s' → ∃ g, s.Nearest x f g ∧ s.Rebinds g x v s' ∧
      (∀ h, s.Nearest x h g → s'.get? h x = some v) ∧
      ∀ h y, ¬(y = x ∧ s.Nearest x h g) → s'.get? h y = s.get? h y) ∧
    (f < s.size → s.Rebinds f x v (s.define f x v) ∧
      (∀ h, (s.define f x v).Nearest x h f ↔ s.Sees x h f) ∧
      (∀ h, s.Sees x h f → (s.define f x v).get? h x = some v) ∧
      ∀ h y, ¬(y = x ∧ s.Sees x h f) → (s.define f x v).get? h y = s.get? h y) := by
  refine ⟨⟨isDefined_eq s f x, get?_eq s f x, assign?_eq s f x v⟩,
    ⟨isDefined_iff_get?, isDefined_iff_assign? v, isDefined_iff_exists⟩, ?_, ?_⟩
  · intro s' ha
    obtain ⟨g, hg, hr⟩ := rebinds_of_assign? ha
    refine ⟨g, hg, hr, fun h hh => hr.inside hh.sees, fun h y hn => hr.outside ?_⟩
    rintro ⟨hy, hs⟩
    exact hn ⟨hy, hs, hg.binds⟩
  · intro hf
    have hr := rebinds_define hf x v
    exact ⟨hr, fun h => hr.nearest_iff, fun h => hr.inside, fun h y => hr.outside⟩

/-- A function's frame with two blocks inside it, one of which has an `x` of its own that hides the global one. -/
def shadowed : Scopes :=
  ((((root.child Store.globals).child 1).child 1).define Store.globals "x" .null).define 2 "x" (.boolean false)

/-- An assignment from the other block goes to the global frame. The function and the block see it, the first block does
not. A definition in the function's frame is seen from the block inside it and not from the global frame. -/
theorem frames_obey_their_laws_shadowed :
    (∃ s', shadowed.assign? 3 "x" (.boolean true) = some s' ∧ s'.get? 1 "x" = some (.boolean true) ∧
      s'.get? 3 "x" = some (.boolean true) ∧ s'.get? 2 "x" = shadowed.get? 2 "x") ∧
    (shadowed.define 1 "x" (.boolean true)).get? 3 "x" = some (.boolean true) ∧
    (shadowed.define 1 "x" (.boolean true)).get? 0 "x" = shadowed.get? 0 "x" := by
  have hglobals : shadowed.Binds 0 "x" := by decide
  have hhidden : shadowed.Binds 2 "x" := by decide
  have hone : shadowed.Sees "x" 1 0 := .outward (by decide) (by decide) (.here 0)
  have hinner : shadowed.Sees "x" 3 1 := .outward (by decide) (by decide) (.here 1)
  have hthree : shadowed.Sees "x" 3 0 := .outward (by decide) (by decide) hone
  obtain ⟨-, ⟨-, hassign, hnearest⟩, hassigned, -⟩ := frames_obey_their_laws shadowed 3 "x" (.boolean true)
  obtain ⟨-, -, -, hdefined⟩ := frames_obey_their_laws shadowed 1 "x" (.boolean true)
  obtain ⟨s', hs'⟩ := Option.isSome_iff_exists.1 (hassign.1 (hnearest.2 ⟨0, hthree, hglobals⟩))
  obtain ⟨g, hg, -, hinside, houtside⟩ := hassigned s' hs'
  obtain rfl : g = 0 := hg.unique ⟨hthree, hglobals⟩
  obtain ⟨-, -, hseen, hunseen⟩ := hdefined (by decide)
  refine ⟨⟨s', hs', hinside 1 ⟨hone, hglobals⟩, hinside 3 ⟨hthree, hglobals⟩, houtside 2 "x" ?_⟩, hseen 3 hinner,
    hunseen 0 "x" ?_⟩
  · rintro ⟨-, hs, -⟩
    exact absurd (hs.eq_of_binds hhidden) (by decide)
  · rintro ⟨-, hs⟩
    exact absurd hs.le (by decide)

/-- From a frame on the way to the global frame that frame is seen, unless a nearer one binds the name. -/
theorem Chain.sees {s : Scopes} {f : FrameId} {chain : List FrameId} {x : String} (hc : s.Chain f chain)
    (hn : ∀ g, ¬s.Nearest x f g) : s.Sees x f Store.globals := by
  induction hc with
  | globals => exact .here _
  | inside hp _ ih =>
    have hb : ¬s.Binds _ x := fun hb => hn _ ⟨.here _, hb⟩
    exact .outward hb hp (ih fun g hg => hn g ⟨.outward hb hp hg.sees, hg.binds⟩)

end Scopes

/-! ## Assignments of a machine -/

namespace Machine

/-- The frame where a machine assigns a name: the nearest one that binds it, or the one that the settings say. -/
inductive Assigns (m : Machine) (x : String) : FrameId → Prop
  | bound {g : FrameId} : m.store.scopes.Nearest x m.here g → Assigns m x g
  | current : (∀ g, ¬m.store.scopes.Nearest x m.here g) → m.settings.assignScope = .current → Assigns m x m.here
  | globals : (∀ g, ¬m.store.scopes.Nearest x m.here g) → m.settings.assignScope = .global → Assigns m x Store.globals

section Assigns

variable {m : Machine} {x : String} {g : FrameId}

theorem Assigns.assignVariable (h : m.Assigns x g) (v : Value) :
    m.assignVariable x v = { m with store := { m.store with scopes := m.store.scopes.define g x v } } := by
  have hnone (hn : ∀ g, ¬m.store.scopes.Nearest x m.here g) : m.store.scopes.home? m.here x = none :=
    Option.eq_none_iff_forall_ne_some.2 fun g hg => hn g (Scopes.nearest_of_home? hg)
  cases h with
  | bound hg =>
    unfold Machine.assignVariable
    rw [hg.home?]
    rfl
  | current hn hs =>
    unfold Machine.assignVariable
    rw [hnone hn, hs]
    rfl
  | globals hn hs =>
    unfold Machine.assignVariable
    rw [hnone hn, hs]
    rfl

theorem exists_assigns (m : Machine) (x : String) : ∃ g, m.Assigns x g := by
  by_cases hn : ∃ g, m.store.scopes.Nearest x m.here g
  · obtain ⟨g, hg⟩ := hn
    exact ⟨g, .bound hg⟩
  · cases hs : m.settings.assignScope with
    | current => exact ⟨_, .current (not_exists.1 hn) hs⟩
    | global => exact ⟨_, .globals (not_exists.1 hn) hs⟩

/-- A rooted machine assigns a name in a frame that there is and that it sees. -/
theorem Rooted.assigns (hm : m.Rooted) (h : m.Assigns x g) :
    g < m.store.scopes.size ∧ m.store.scopes.Sees x m.here g := by
  cases h with
  | bound hg => exact ⟨hg.binds.lt, hg.sees⟩
  | current => exact ⟨hm.ranges.here, .here _⟩
  | globals hn =>
    obtain ⟨chain, hc⟩ := Scopes.exists_chain hm.root hm.inside hm.ranges.here
    exact ⟨hm.ranges.globals, hc.sees hn⟩

end Assigns

end Machine

open Machine Session in
/-- **What is assigned can be read back.** At every moment of a session, between its steps and during them: to assign a
name that means something is the assignment of the frames, which does not fail then, and to assign another is to define
it in the current frame or in the global one, as the settings say. From the current frame the name means the assigned
value afterwards; one slot was changed and nothing else of the machine. -/
theorem assigned_name_reads_back (registry : Registry) (config : Config) (console : Console) (s : Session)
    (hs : Session.Owned registry config console s) (m : Machine)
    (hm : m = s.machine ∨
      ∃ t shown, Task.Owned s.machine.store t ∧ Carried [] (s.machine.undertake t) shown m)
    (x : String) (v : Value) :
    (m.store.scopes.isDefined m.here x = true →
      m.store.scopes.assign? m.here x v = some (m.assignVariable x v).store.scopes) ∧
    (m.store.scopes.isDefined m.here x = false →
      (m.assignVariable x v).store.scopes = m.store.scopes.define
        (match m.settings.assignScope with | .current => m.here | .global => Store.globals) x v) ∧
    (m.assignVariable x v).store.scopes.get? m.here x = some v ∧
    (∃ g, m.Assigns x g ∧ m.store.scopes.Rebinds g x v (m.assignVariable x v).store.scopes) ∧
    m.assignVariable x v = { m with store := { m.store with scopes := (m.assignVariable x v).store.scopes } } := by
  have hrooted := hs.rooted_during hm
  obtain ⟨g, hg⟩ := m.exists_assigns x
  obtain ⟨hlt, hsees⟩ := hrooted.assigns hg
  have hr := Scopes.rebinds_define hlt x v
  rw [hg.assignVariable v]
  refine ⟨fun hd => ?_, fun hd => ?_, hr.inside hsees, ⟨g, hg, hr⟩, rfl⟩
  · obtain ⟨k, hk⟩ := Scopes.isDefined_iff_exists.1 hd
    have hkg : k = g := by
      cases hg with
      | bound hg => exact hk.unique hg
      | current hn => exact absurd hk (hn k)
      | globals hn => exact absurd hk (hn k)
    rw [Scopes.assign?, hk.home?, hkg]
  · cases hg with
    | bound hg =>
      rw [Scopes.isDefined_iff_exists.2 ⟨g, hg⟩] at hd
      cases hd
    | current _ hscope => rw [hscope]
    | globals _ hscope => rw [hscope]

open Machine Session in
/-- Inside a block, with undeclared names sent to the global frame. The name is defined there and read back from the
block. -/
theorem assigned_name_reads_back_insideBlock :
    ∃ m : Machine, m.here = 1 ∧ m.settings.assignScope = .global ∧
      (m.assignVariable "x" .null).store.scopes = m.store.scopes.define Store.globals "x" .null ∧
      (m.assignVariable "x" .null).store.scopes.get? m.here "x" = some .null := by
  let config : Config := ⟨defaultMaxCallDepth, .global, none⟩
  let s := Session.new .empty config (.script (.ofInputs []))
  let t := Task.statement (.block [] ⟨0, 0, 1⟩)
  let m := (s.machine.undertake t).step.1.step.1
  have hc : Carried [] (s.machine.undertake t) ([] ++ ([] ++ [])) m :=
    .move (fun h => by cases h.2) (.step rfl) (.move (fun h => by cases h.2) (.step rfl) (.refl m))
  have hparent : m.store.scopes.enclosing? m.here = some Store.globals := by decide
  have hundefined : m.store.scopes.isDefined m.here "x" = false := by
    rw [Scopes.isDefined_eq, hparent, Option.any_some, Scopes.isDefined_eq]
    decide
  obtain ⟨-, hdefined, hread, -, -⟩ :=
    assigned_name_reads_back .empty config _ s (.new _) m (Or.inr ⟨t, _, trivial, hc⟩) "x" .null
  exact ⟨m, rfl, rfl, hdefined hundefined, hread⟩

end StepScript
