import StepScript.Proofs.Machine.Names
import StepScript.Proofs.Machine.Renaming

/-!
# Frames that bind nothing can be folded away

A frame that never binds a name of its own makes no difference: whatever is looked up or bound from inside it is looked
up or bound in the frames around it. So a tree of frames can be folded: some frames go where the frame around them goes,
the others keep their names and their place (`Scopes.Folds`).

* A name is found in a folded tree where it is found in the other (`Folds.home?`, `Folds.get?`).
* Names that are bound in frames that stay, and frames that are entered on both sides, keep a fold (`Folds.define`,
  `Folds.child`). A frame that is entered on one side only is folded away (`Folds.fold`).
-/

namespace StepScript

/-- Where each frame goes, and which frames are folded away. -/
structure Fold where
  place : FrameId → FrameId
  gone : FrameId → Prop

namespace Fold

/-- Nothing is folded. -/
def none : Fold := ⟨id, fun _ => False⟩

/-- The frame `e`, newer than all that there are, goes to `target`; frames that are made later get the numbers from
`next` on. -/
def add (F : Fold) (e target next : Nat) : Fold where
  place f := if f < e then F.place f else if f = e then target else next + (f - e - 1)
  gone f := F.gone f ∨ f = e

/-- Two folds agree on the frames below `k`. -/
structure Extends (k : Nat) (F G : Fold) : Prop where
  place : ∀ f, f < k → G.place f = F.place f
  gone : ∀ f, f < k → (G.gone f ↔ F.gone f)

variable {F : Fold} {e target next f : Nat}

theorem add_place_lt (h : f < e) : (F.add e target next).place f = F.place f := if_pos h

@[simp] theorem add_place_self : (F.add e target next).place e = target := by
  simp [add]

theorem add_place_gt (k : Nat) : (F.add e target next).place (e + 1 + k) = next + k := by
  have hlt : ¬e + 1 + k < e := by omega
  have hne : ¬e + 1 + k = e := by omega
  have hk : e + 1 + k - e - 1 = k := by omega
  simp only [add, if_neg hlt, if_neg hne, hk]

theorem extends_add : Extends e F (F.add e target next) := by
  refine ⟨fun f hf => add_place_lt hf, fun f hf => ⟨?_, Or.inl⟩⟩
  rintro (h | rfl)
  · exact h
  · exact absurd hf (Nat.lt_irrefl _)

end Fold

namespace Scopes

/-- The frames `s` are the frames `s'` with some of them folded into those around them, none of the first `n`: these
bind nothing, and all others keep their names, with the frames of functions renamed, and their place. -/
structure Folds (n : Nat) (F : Fold) (s' s : Scopes) : Prop where
  some : 0 < n
  le : n ≤ s'.size
  kept : ∀ f, f < n → F.place f = f ∧ ¬F.gone f
  /-- New frames get the next numbers on both sides. -/
  fresh : ∀ k, F.place (s'.size + k) = s.size + k
  lt : ∀ f, f < s'.size → F.place f < s.size
  within : ∀ f, F.gone f → f < s'.size
  slots : ∀ f, f < s'.size → ¬F.gone f → ∀ x,
    (s.slots (F.place f)).find? x = ((s'.slots f).find? x).map (Value.rename F.place)
  parent : ∀ f, f < s'.size → ¬F.gone f → s.enclosing? (F.place f) = (s'.enclosing? f).map F.place
  empty : ∀ f, F.gone f → ∀ x, (s'.slots f).find? x = none
  inside : ∀ f, F.gone f → ∃ p, s'.enclosing? f = Option.some p ∧ F.place p = F.place f
  distinct : ∀ f g, f < s'.size → g < s'.size → ¬F.gone f → ¬F.gone g → F.place f = F.place g → f = g

section Folds

variable {n : Nat} {F : Fold} {s' s : Scopes}

/-- Nothing need be folded. -/
theorem Folds.refl (h : 0 < s.size) : s.Folds s.size .none s where
  some := h
  le := Nat.le_refl _
  kept f _ := ⟨rfl, not_false⟩
  fresh _ := rfl
  lt _ h := h
  within _ h := h.elim
  slots f _ _ x := by
    show (s.slots f).find? x = _
    cases (s.slots f).find? x with
    | none => rfl
    | some v => exact congrArg Option.some v.rename_id.symm
  parent f _ _ := by
    show s.enclosing? f = _
    cases s.enclosing? f <;> rfl
  empty _ h := h.elim
  inside _ h := h.elim
  distinct _ _ _ _ _ _ h := h

/-- Frames that there are go to frames that there are, and no others do. -/
theorem Folds.lt_iff (h : s'.Folds n F s) (f : FrameId) : F.place f < s.size ↔ f < s'.size := by
  refine ⟨fun hf => Nat.lt_of_not_le fun hle => ?_, h.lt f⟩
  obtain ⟨k, rfl⟩ := Nat.exists_eq_add_of_le hle
  rw [h.fresh k] at hf
  exact absurd hf (Nat.not_lt.2 (Nat.le_add_right _ _))

/-- A frame that is made next is not folded away by itself. -/
theorem Folds.not_gone (h : s'.Folds n F s) : ¬F.gone s'.size := fun hg => Nat.lt_irrefl _ (h.within _ hg)

/-- **A name is found in the frame that goes with the one it is found in**, and that one is not folded away. -/
theorem Folds.home? (h : s'.Folds n F s) (f : FrameId) (x : String) :
    s.home? (F.place f) x = (s'.home? f x).map F.place ∧ ∀ g, s'.home? f x = Option.some g → ¬F.gone g := by
  induction f using Nat.strongRecOn with
  | ind f ih =>
    by_cases hf : f < s'.size
    · by_cases hg : F.gone f
      · -- The frame binds nothing, so the search goes on around it.
        obtain ⟨p, hp, hto⟩ := h.inside f hg
        have hc : (s'.slots f).contains x = false := by rw [Bindings.contains, h.empty f hg x]; rfl
        rw [home?_eq s' f x, hc, hp, ← hto]
        exact ih p (lt_of_enclosing? hp).1
      · have hc : (s.slots (F.place f)).contains x = (s'.slots f).contains x := by
          rw [Bindings.contains, h.slots f hf hg x, Option.isSome_map]
          rfl
        rw [home?_eq s (F.place f) x, home?_eq s' f x, hc, h.parent f hf hg]
        cases (s'.slots f).contains x with
        | true =>
          refine ⟨rfl, ?_⟩
          rintro g ⟨⟩
          exact hg
        | false =>
          cases hp : s'.enclosing? f with
          | none =>
            refine ⟨rfl, fun g hg => ?_⟩
            cases hg
          | some p => exact ih p (lt_of_enclosing? hp).1
    · have hn : ¬F.place f < s.size := fun hlt => hf ((h.lt_iff f).1 hlt)
      rw [home?_of_le (Nat.not_lt.1 hf), home?_of_le (Nat.not_lt.1 hn)]
      refine ⟨rfl, fun g hg => ?_⟩
      cases hg

/-- **A name means the same**, with the frame of a function renamed. -/
theorem Folds.get? (h : s'.Folds n F s) (f : FrameId) (x : String) :
    s.get? (F.place f) x = (s'.get? f x).map (Value.rename F.place) := by
  obtain ⟨hhome, hkept⟩ := h.home? f x
  rw [Scopes.get?, Scopes.get?, hhome]
  cases hx : s'.home? f x with
  | none => rfl
  | some g => exact h.slots g (lt_of_home? hx) (hkept g hx) x

/-- A name is bound in a frame that stays. -/
theorem Folds.define (h : s'.Folds n F s) {t : FrameId} (ht : ¬F.gone t) (x : String) (v : Value) :
    (s'.define t x v).Folds n F (s.define (F.place t) x (v.rename F.place)) := by
  refine ⟨h.some, by rw [size_define]; exact h.le, h.kept, ?_, ?_, ?_, ?_, ?_, ?_, ?_, ?_⟩
  · simpa only [size_define] using h.fresh
  · simpa only [size_define] using h.lt
  · simpa only [size_define] using h.within
  · intro f hf hg y
    rw [size_define] at hf
    have hsame : (F.place t = F.place f ∧ F.place f < s.size) ↔ (t = f ∧ f < s'.size) := by
      refine ⟨fun ⟨heq, hlt⟩ => ⟨?_, hf⟩, fun ⟨heq, _⟩ => ⟨congrArg F.place heq, h.lt f hf⟩⟩
      rw [← heq] at hlt
      exact h.distinct t f ((h.lt_iff t).1 hlt) hf ht hg heq
    rw [slots_define, slots_define]
    by_cases hc : t = f ∧ f < s'.size
    · rw [if_pos hc, if_pos (hsame.2 hc), Bindings.find?_put, Bindings.find?_put, h.slots f hf hg y]
      split <;> rfl
    · rw [if_neg hc, if_neg (fun hn => hc (hsame.1 hn)), h.slots f hf hg y]
  · intro f hf hg
    rw [size_define] at hf
    rw [enclosing?_define, enclosing?_define, h.parent f hf hg]
  · intro f hg y
    have hne : ¬(t = f ∧ f < s'.size) := by
      rintro ⟨rfl, -⟩
      exact ht hg
    rw [slots_define, if_neg hne, h.empty f hg y]
  · intro f hg
    rw [enclosing?_define]
    exact h.inside f hg
  · intro f g hf hg
    rw [size_define] at hf hg
    exact h.distinct f g hf hg

/-- Parameters are bound in a frame that stays. -/
theorem Folds.bindAll (h : s'.Folds n F s) {t : FrameId} (ht : ¬F.gone t) (params : List String) (args : List Value) :
    ((params.zip args).foldl (fun s e => s.define t e.1 e.2) s').Folds n F
      ((params.zip (args.map (Value.rename F.place))).foldl (fun s e => s.define (F.place t) e.1 e.2) s) := by
  induction params generalizing args s' s with
  | nil => exact h
  | cons x params ih =>
    cases args with
    | nil => exact h
    | cons v args => exact ih (h.define ht x v) args

/-- A frame is entered on both sides. -/
theorem Folds.child (h : s'.Folds n F s) (p : FrameId) : (s'.child p).Folds n F (s.child (F.place p)) := by
  have hnew : F.place s'.size = s.size := h.fresh 0
  have hold : ∀ f : Nat, f < s'.size + 1 → f < s'.size ∨ f = s'.size := by omega
  refine ⟨h.some, by rw [size_child]; exact Nat.le_succ_of_le h.le, h.kept, ?_, ?_, ?_, ?_, ?_, ?_, ?_, ?_⟩
  · intro k
    rw [size_child, size_child, Nat.add_assoc, h.fresh, Nat.add_assoc]
  · intro f hf
    rw [size_child] at hf ⊢
    rcases hold f hf with hf | rfl
    · exact Nat.lt_succ_of_lt (h.lt f hf)
    · rw [hnew]
      exact Nat.lt_succ_self _
  · intro f hg
    rw [size_child]
    exact Nat.lt_succ_of_lt (h.within f hg)
  · intro f hf hg x
    rw [size_child] at hf
    rw [slots_child, slots_child]
    rcases hold f hf with hf | rfl
    · exact h.slots f hf hg x
    · rw [hnew, slots_of_le (Nat.le_refl _), slots_of_le (Nat.le_refl _)]
      rfl
  · intro f hf hg
    rw [size_child] at hf
    rw [enclosing?_child, enclosing?_child]
    rcases hold f hf with hf | rfl
    · rw [if_neg (Nat.ne_of_lt hf), if_neg (Nat.ne_of_lt (h.lt f hf)), h.parent f hf hg]
    · rw [if_pos rfl, if_pos hnew]
      by_cases hp : p < s'.size
      · rw [if_pos hp, if_pos (h.lt p hp)]
        rfl
      · rw [if_neg hp, if_neg fun hlt => hp ((h.lt_iff p).1 hlt)]
        rfl
  · intro f hg x
    rw [slots_child]
    exact h.empty f hg x
  · intro f hg
    rw [enclosing?_child, if_neg (Nat.ne_of_lt (h.within f hg))]
    exact h.inside f hg
  · intro f g hf hg hfg hgg heq
    rw [size_child] at hf hg
    rcases hold f hf with hf | rfl <;> rcases hold g hg with hg | rfl
    · exact h.distinct f g hf hg hfg hgg heq
    · exact absurd (heq.trans hnew) (Nat.ne_of_lt (h.lt f hf))
    · exact absurd (heq.symm.trans hnew) (Nat.ne_of_lt (h.lt g hg))
    · rfl

/-- **A frame that is entered on one side only is folded away**: no value refers to it yet. -/
theorem Folds.fold (h : s'.Folds n F s) {p : FrameId} (hp : p < s'.size)
    (hv : ∀ f x v, (s'.slots f).find? x = Option.some v →
      v.rename (F.add s'.size (F.place p) s.size).place = v.rename F.place) :
    (s'.child p).Folds n (F.add s'.size (F.place p) s.size) s := by
  have hext : Fold.Extends s'.size F (F.add s'.size (F.place p) s.size) := Fold.extends_add
  have hold : ∀ f : Nat, f < s'.size + 1 → ¬(F.add s'.size (F.place p) s.size).gone f → f < s'.size ∧ ¬F.gone f := by
    intro f hf hg
    have hne : f ≠ s'.size := fun he => hg (Or.inr he)
    exact ⟨by omega, fun h => hg (Or.inl h)⟩
  refine ⟨h.some, by rw [size_child]; exact Nat.le_succ_of_le h.le, ?_, ?_, ?_, ?_, ?_, ?_, ?_, ?_, ?_⟩
  · intro f hf
    have hlt : f < s'.size := Nat.lt_of_lt_of_le hf h.le
    rw [hext.place f hlt, hext.gone f hlt]
    exact h.kept f hf
  · intro k
    rw [size_child, Fold.add_place_gt]
  · intro f hf
    rw [size_child] at hf
    by_cases hlt : f < s'.size
    · rw [hext.place f hlt]
      exact h.lt f hlt
    · have he : f = s'.size := Nat.le_antisymm (Nat.le_of_lt_succ hf) (Nat.not_lt.1 hlt)
      rw [he, Fold.add_place_self]
      exact h.lt p hp
  · intro f hg
    rw [size_child]
    rcases hg with hg | rfl
    · exact Nat.lt_succ_of_lt (h.within f hg)
    · exact Nat.lt_succ_self _
  · intro f hf hg x
    rw [size_child] at hf
    obtain ⟨hlt, hgone⟩ := hold f hf hg
    rw [hext.place f hlt, slots_child, h.slots f hlt hgone x]
    cases hx : (s'.slots f).find? x with
    | none => rfl
    | some v => exact congrArg Option.some (hv f x v hx).symm
  · intro f hf hg
    rw [size_child] at hf
    obtain ⟨hlt, hgone⟩ := hold f hf hg
    rw [hext.place f hlt, enclosing?_child, if_neg (Nat.ne_of_lt hlt), h.parent f hlt hgone]
    cases hq : s'.enclosing? f with
    | none => rfl
    | some q =>
      have hqlt : q < s'.size := Nat.lt_trans (lt_of_enclosing? hq).1 hlt
      exact congrArg Option.some (hext.place q hqlt).symm
  · intro f hg x
    rw [slots_child]
    rcases hg with hg | rfl
    · exact h.empty f hg x
    · rw [slots_of_le (Nat.le_refl _)]
      rfl
  · intro f hg
    rw [enclosing?_child]
    rcases hg with hg | rfl
    · have hlt := h.within f hg
      obtain ⟨q, hq, hto⟩ := h.inside f hg
      have hqlt : q < s'.size := Nat.lt_trans (lt_of_enclosing? hq).1 hlt
      rw [if_neg (Nat.ne_of_lt hlt), hext.place f hlt]
      exact ⟨q, hq, (hext.place q hqlt).trans hto⟩
    · rw [if_pos rfl, if_pos hp, Fold.add_place_self]
      exact ⟨p, rfl, hext.place p hp⟩
  · intro f g hf hg hfg hgg heq
    rw [size_child] at hf hg
    obtain ⟨hflt, hfgone⟩ := hold f hf hfg
    obtain ⟨hglt, hggone⟩ := hold g hg hgg
    rw [hext.place f hflt, hext.place g hglt] at heq
    exact h.distinct f g hflt hglt hfgone hggone heq

end Folds

end Scopes

/-- The store `s` is the store `s'` with frames folded. -/
structure Store.Folds (n : Nat) (F : Fold) (s' s : Store) : Prop extends Store.Renames F.place s' s where
  scopes : s'.scopes.Folds n F s.scopes

end StepScript
