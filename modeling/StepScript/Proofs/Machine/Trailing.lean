import StepScript.Proofs.Machine.Stopping

/-!
# Runs that trail one another

Two runs do the same if one machine can always catch up with the other in steps that show nothing (`Quiet`) and then
both make a watched step alike.

* `Joint o J E P` says that machines that `J` relates do so: after a watched step the observer `o` is in the same state,
  and the first machine trails the second again (`GoOn`), or both are at rest, and then `E` relates them (`ComeToRest`).
  Where `P` holds of the second machine, the two may part.
* By induction on a run, to every moment of the one there is a moment of the other, up to the first one at which they
  part (`Trails.forward`, `Trails.backward`).
* So runs that do not part are `Twins` (`Trails.twins`).
-/

namespace StepScript

namespace Machine

/-! ## The moments of a run -/

/-- A step that shows nothing. -/
def Quiet (m m₁ : Machine) : Prop := ¬m.Back [] ∧ m.waiting? = none ∧ m.step = (m₁, none)

theorem Quiet.advance {m m₁ : Machine} (h : Quiet m m₁) {σ : Type} (o : Observer σ) (s : σ) :
    m.advance o s = .going s m₁ := by
  rw [advance_eq o s h.2.1 (finished?_eq_none h.1), h.2.2]

section Moments

variable {σ : Type} {o : Observer σ} {s s₁ s₂ : σ} {m m₁ m₂ : Machine}

theorem During.quiet (h : During o s m s₁ m₁) (hq : Relation.ReflTransGen Quiet m₁ m₂) : During o s m s₁ m₂ := by
  induction hq with
  | refl => exact h
  | tail _ hs ih => exact .going ih (hs.advance o s₁)

theorem During.of_going (ha : m.advance o s = .going s₁ m₁) (h : During o s₁ m₁ s₂ m₂) : During o s m s₂ m₂ := by
  induction h with
  | start => exact .going .start ha
  | going _ ha₂ ih => exact .going ih ha₂

/-- A run comes to rest after one of its moments. -/
theorem exists_rest {fuel : Nat} (h : m.run o fuel s = some (s₁, m₁)) :
    ∃ s₂ m₂, During o s m s₂ m₂ ∧ m₂.advance o s₂ = .resting s₁ m₁ := by
  induction fuel generalizing s m with
  | zero => cases h
  | succ fuel ih =>
    rw [Machine.run] at h
    split at h
    · rename_i ha
      obtain ⟨s₂, m₂, hd, hrest⟩ := ih h
      exact ⟨s₂, m₂, .of_going ha hd, hrest⟩
    · rename_i ha
      cases h
      exact ⟨s, m, .start, ha⟩

theorem During.run_of_rest (h : During o s m s₂ m₂) (ha : m₂.advance o s₂ = .resting s₁ m₁) :
    ∃ fuel, m.run o fuel s = some (s₁, m₁) := by
  obtain ⟨k, hk⟩ := h.run
  exact ⟨k + 1, by rw [hk, Machine.run, ha]⟩

/-- A watched step under an observer who does not hold the run. -/
theorem advance_unheld (ho : ∀ s m e, (o.see s m e).2.course ≠ .hold) (s : σ) (hw : m.waiting? = none)
    (hb : ¬m.Back []) :
    m.advance o s =
      match m.step with
      | (m₁, none) => .going s m₁
      | (m₁, some e) => .going (o.see s m₁ e).1 (m₁.heed (o.see s m₁ e).2) := by
  rw [advance_eq o s hw (finished?_eq_none hb)]
  obtain ⟨m₁, e⟩ := m.step
  cases e with
  | none => rfl
  | some e =>
    have hlets := ho s m₁ e
    dsimp only
    split
    · rename_i hhold
      exact absurd hhold hlets
    · rfl

end Moments

/-! ## Two runs -/

/-- After some steps that show nothing the first machine is where `J` relates it to the second. -/
def Trails (J : Machine → Machine → Prop) (m' m : Machine) : Prop :=
  ∃ m₁', Relation.ReflTransGen Quiet m' m₁' ∧ J m₁' m

theorem Trails.refl {J : Machine → Machine → Prop} {m' m : Machine} (h : J m' m) : Trails J m' m := ⟨m', .refl, h⟩

theorem Trails.quiet {J : Machine → Machine → Prop} {m' m₁' m : Machine} (hq : Quiet m' m₁') (h : Trails J m₁' m) :
    Trails J m' m := by
  obtain ⟨m₂', hq', hJ⟩ := h
  exact ⟨m₂', .head hq hq', hJ⟩

/-- Both make a watched step and go on, with the observer in the same state, and the first trails the second. -/
def GoOn {σ : Type} (o : Observer σ) (J : Machine → Machine → Prop) (s : σ) (m' m : Machine) : Prop :=
  ∃ s₁ m₁' m₁, m'.advance o s = .going s₁ m₁' ∧ m.advance o s = .going s₁ m₁ ∧ Trails J m₁' m₁

/-- Both come to rest, with the observer in the same state, and as `E` says. -/
def ComeToRest {σ : Type} (o : Observer σ) (E : Machine → Machine → Prop) (s : σ) (m' m : Machine) : Prop :=
  ∃ s₁ m₁' m₁, m'.advance o s = .resting s₁ m₁' ∧ m.advance o s = .resting s₁ m₁ ∧ E m₁' m₁

/-- Machines that `J` relates make their watched steps alike, unless `P` holds of the second. -/
def Joint {σ : Type} (o : Observer σ) (J E : Machine → Machine → Prop) (P : Machine → Prop) : Prop :=
  ∀ s m' m, J m' m → ¬P m → GoOn o J s m' m ∨ ComeToRest o E s m' m

/-- Two runs cannot be told apart by their observer, and where one comes to rest the other does, too, as `E` says. -/
structure Twins {σ : Type} (o : Observer σ) (E : Machine → Machine → Prop) (s : σ) (m' m : Machine) : Prop where
  seen : ∀ s₁, (∃ m₁', During o s m' s₁ m₁') ↔ ∃ m₁, During o s m s₁ m₁
  first : ∀ fuel s₁ m₁', m'.run o fuel s = some (s₁, m₁') → ∃ fuel m₁, m.run o fuel s = some (s₁, m₁) ∧ E m₁' m₁
  second : ∀ fuel s₁ m₁, m.run o fuel s = some (s₁, m₁) → ∃ fuel m₁', m'.run o fuel s = some (s₁, m₁') ∧ E m₁' m₁

section Trails

variable {σ : Type} {o : Observer σ} {J E : Machine → Machine → Prop} {P : Machine → Prop} {s s₁ : σ}
  {m' m m₁' m₁ : Machine}

theorem goOn_of_quiet (hq' : Quiet m' m₁') (hq : Quiet m m₁) (ht : Trails J m₁' m₁) (s : σ) : GoOn o J s m' m :=
  ⟨s, m₁', m₁, hq'.advance o s, hq.advance o s, ht⟩

theorem comeToRest_of_back (hb' : m'.Back []) (hb : m.Back []) (hE : E m' m) (s : σ) : ComeToRest o E s m' m := by
  obtain ⟨result', hf'⟩ := finished?_of_back hb'
  obtain ⟨result, hf⟩ := finished?_of_back hb
  exact ⟨s, m', m, advance_finished o s hf', advance_finished o s hf, hE⟩

/-- **To every moment of the second run there is one of the first**, or else to an earlier one at which they part. -/
theorem Trails.forward (hJ : Joint o J E P) (ht : Trails J m' m) (hd : During o s m s₁ m₁) :
    (∃ m₁', During o s m' s₁ m₁' ∧ J m₁' m₁) ∨
      ∃ s₂ m₂' m₂, During o s m s₂ m₂ ∧ P m₂ ∧ During o s m' s₂ m₂' ∧ J m₂' m₂ := by
  induction hd with
  | start =>
    obtain ⟨m₁', hq, hm⟩ := ht
    exact Or.inl ⟨m₁', During.quiet .start hq, hm⟩
  | @going t t₁ m₂ m₃ hd ha ih =>
    rcases ih with ⟨m₂', hd', hm⟩ | hparted
    · by_cases hP : P m₂
      · exact Or.inr ⟨t, m₂', m₂, hd, hP, hd', hm⟩
      · rcases hJ t m₂' m₂ hm hP with ⟨t₂, m₃', m₄, ha', ha₁, m₄', hq, hm₁⟩ | ⟨t₂, _, _, -, ha₁, -⟩
        · rw [ha] at ha₁
          cases ha₁
          exact Or.inl ⟨m₄', (During.going hd' ha').quiet hq, hm₁⟩
        · rw [ha] at ha₁
          cases ha₁
    · exact Or.inr hparted

/-- If they do not part, **to every moment of the first run there is one of the second**. -/
theorem Trails.backward (hJ : Joint o J E P) (ht : Trails J m' m) (hP : ∀ s₁ m₁, During o s m s₁ m₁ → ¬P m₁)
    (hd : During o s m' s₁ m₁') : ∃ m₁, During o s m s₁ m₁ ∧ Trails J m₁' m₁ := by
  induction hd with
  | start => exact ⟨m, .start, ht⟩
  | @going t t₁ m₂' m₃' _ ha ih =>
    obtain ⟨m₂, hd, m₄', hq, hm⟩ := ih
    -- The first machine is on its way to the next step of the second, or it is there.
    rcases hq.cases_head with rfl | ⟨m₅', hstep, hq⟩
    · rcases hJ t m₂' m₂ hm (hP _ _ hd) with ⟨t₂, m₆', m₆, ha', ha₁, hm₁⟩ | ⟨t₂, _, _, ha', -⟩
      · rw [ha] at ha'
        cases ha'
        exact ⟨m₆, .going hd ha₁, hm₁⟩
      · rw [ha] at ha'
        cases ha'
    · rw [hstep.advance o t] at ha
      cases ha
      exact ⟨m₂, hd, m₄', hq, hm⟩

/-- **Runs that do not part are twins.** -/
theorem Trails.twins (hJ : Joint o J E P) (ht : Trails J m' m) (hP : ∀ s₁ m₁, During o s m s₁ m₁ → ¬P m₁) :
    Twins o E s m' m := by
  have hforward {s₁ : σ} {m₁ : Machine} (hd : During o s m s₁ m₁) : ∃ m₁', During o s m' s₁ m₁' ∧ J m₁' m₁ := by
    rcases ht.forward hJ hd with h | ⟨s₂, _, m₂, hd₂, hp, -⟩
    · exact h
    · exact absurd hp (hP s₂ m₂ hd₂)
  refine ⟨fun s₁ => ⟨fun ⟨m₁', hd⟩ => ?_, fun ⟨m₁, hd⟩ => ?_⟩, fun fuel s₁ m₁' hrun => ?_, fun fuel s₁ m₁ hrun => ?_⟩
  · obtain ⟨m₁, hd₁, -⟩ := ht.backward hJ hP hd
    exact ⟨m₁, hd₁⟩
  · obtain ⟨m₁', hd', -⟩ := hforward hd
    exact ⟨m₁', hd'⟩
  · obtain ⟨s₂, m₂', hd', ha'⟩ := exists_rest hrun
    obtain ⟨m₂, hd, m₃', hq, hm⟩ := ht.backward hJ hP hd'
    rcases hq.cases_head with rfl | ⟨m₄', hstep, -⟩
    · rcases hJ s₂ m₂' m₂ hm (hP _ _ hd) with ⟨_, _, _, ha, -⟩ | ⟨s₃, _, m₃, ha, ha₁, hE⟩
      · rw [ha'] at ha
        cases ha
      · rw [ha'] at ha
        cases ha
        obtain ⟨fuel, hfuel⟩ := hd.run_of_rest ha₁
        exact ⟨fuel, m₃, hfuel, hE⟩
    · rw [hstep.advance o s₂] at ha'
      cases ha'
  · obtain ⟨s₂, m₂, hd, ha⟩ := exists_rest hrun
    obtain ⟨m₂', hd', hm⟩ := hforward hd
    rcases hJ s₂ m₂' m₂ hm (hP _ _ hd) with ⟨_, _, _, -, ha₁, -⟩ | ⟨s₃, m₃', _, ha', ha₁, hE⟩
    · rw [ha] at ha₁
      cases ha₁
    · rw [ha] at ha₁
      cases ha₁
      obtain ⟨fuel, hfuel⟩ := hd'.run_of_rest ha'
      exact ⟨fuel, m₃', hfuel, hE⟩

end Trails

end Machine

end StepScript
