import Mathlib.Logic.Relation
import StepScript.Proofs.Machine.Halting
import StepScript.Proofs.Machine.Lively
import StepScript.Proofs.Machine.Scripted
import StepScript.Proofs.Machine.Shift

/-!
# Runs that are told to stop

A run is told to stop before it starts or where an event is shown, so at that moment it waits for no line
(`During.halting`). From there it comes to rest within as many steps as it weighs, and its observer is shown laps and
output only: no statement, and it is not asked for a line (`run_of_halting`).
-/

namespace StepScript

namespace Machine

/-! ## When the flag is set -/

section Flag

variable {m : Machine}

/-- What shows an event waits for no line. -/
def Unasking (r : Machine × Option Event) : Prop := ∀ e ∈ r.2, r.1.waiting? = none

theorem unasking_silent : Unasking (m, none) := nofun

theorem unasking_takeAnswer (span : Span) (a : Answer) : Unasking (m.takeAnswer span a) := by
  cases a with
  | write | writeLine | clear => exact fun _ _ => rfl
  | value | ask | fault => exact unasking_silent

theorem unasking_applyValue (callee : Value) (args : List Value) (span : Span) :
    Unasking (m.applyValue callee args span) := by
  unfold applyValue
  split
  · split
    · split
      · exact unasking_takeAnswer span _
      · exact unasking_silent
    · exact unasking_takeAnswer span _
  · split
    · exact unasking_silent
    · split <;> exact unasking_silent
  · exact unasking_silent

theorem unasking_takeValue (v : Value) (w : Pending) : Unasking (m.takeValue v w) := by
  cases w with
  | write newline => cases newline <;> exact fun _ _ => rfl
  | test condition body =>
    simp only [takeValue]
    split
    · exact fun _ _ => rfl
    · exact unasking_silent
  | discard | logical | setValue =>
    simp only [takeValue]
    split <;> exact unasking_silent
  | choose yes no =>
    simp only [takeValue]
    split
    · exact unasking_silent
    · split <;> exact unasking_silent
  | callee args span => cases args <;> exact unasking_silent
  | argument callee before rest span => cases rest <;> exact unasking_silent
  | item before rest => cases rest <;> exact unasking_silent
  | setProperty | setObject => cases v <;> exact unasking_silent
  | _ => exact unasking_silent

/-- **A step that shows an event does not begin a read.** -/
theorem unasking_step : Unasking m.step := by
  unfold step
  split
  · unfold startStatement
    split
    · exact unasking_silent
    · split
      · exact unasking_silent
      · exact fun _ _ => rfl
  · exact unasking_silent
  · exact unasking_silent
  · exact unasking_applyValue _ _ _
  · exact unasking_silent
  · split
    · exact unasking_silent
    · exact unasking_takeValue _ _
  all_goals split <;> exact unasking_silent

theorem waiting?_heed (h : m.waiting? = none) (v : Verdict) : (m.heed v).waiting? = none := by
  unfold waiting? at h ⊢
  rcases focus_heed (m := m) (v := v) with hf | ⟨d, hf⟩
  · rw [hf]
    exact h
  · rw [hf]

/-- A machine that was stopped goes on stopped, whatever is decided about an event, and grows no heavier. -/
theorem Halting.heed (h : m.Halting) (v : Verdict) : (m.heed v).Halting ∧ (m.heed v).weight ≤ m.weight := by
  refine ⟨⟨?_, waiting?_heed h.unasked v⟩, ?_⟩
  · have hs := h.stopped
    unfold Machine.heed
    cases v.stop <;> cases v.course <;> first | exact hs | rfl
  · rw [Machine.weight, pending_heed]
    rcases focus_heed (m := m) (v := v) with hf | ⟨d, hf⟩
    · rw [hf]
      exact Nat.le_refl _
    · rw [hf]
      exact m.length_le_weight

end Flag

end Machine

/-! ## Runs -/

section Observers

variable {σ : Type} (o : Observer σ)

/-- The observer was shown laps and output in between, and nothing else: no statement, and it was not asked for a
line. -/
def Observer.Hushed : σ → σ → Prop :=
  Relation.ReflTransGen fun s s' => ∃ m e, (∀ line, e ≠ .visit line) ∧ s' = (o.see s m e).1

/-- An observer that holds a run at statements only. -/
def Observer.Patient : Prop := ∀ s m e, (∀ line, e ≠ .visit line) → (o.see s m e).2.course ≠ .hold

namespace Machine

/-- The moments of a run. -/
inductive During (s₀ : σ) (m₀ : Machine) : σ → Machine → Prop
  | start : During s₀ m₀ s₀ m₀
  | going {s s' : σ} {m m' : Machine} : During s₀ m₀ s m → m.advance o s = .going s' m' → During s₀ m₀ s' m'

/-- What happens after a moment of a run is the run from there. -/
theorem During.run {s₀ s : σ} {m₀ m : Machine} (h : During o s₀ m₀ s m) :
    ∃ n, ∀ fuel, m₀.run o (n + fuel) s₀ = m.run o fuel s := by
  induction h with
  | start => exact ⟨0, fun fuel => by rw [Nat.zero_add]⟩
  | going _ ha ih =>
    obtain ⟨n, hn⟩ := ih
    refine ⟨n + 1, fun fuel => ?_⟩
    rw [Nat.add_assoc, Nat.add_comm 1 fuel, hn, Machine.run, ha]

/-- A machine that was told to stop waits for no line. -/
def Composed (m : Machine) : Prop := m.stopped = true → m.waiting? = none

variable {m : Machine} {s s' : σ} {m' : Machine}

/-- An answer ends the wait. -/
theorem Composed.answer (h : m.Composed) (reply : Reply) : (m.answer reply).Composed := by
  unfold Machine.answer
  split
  · cases reply with
    | line text => dsimp only; split <;> exact fun _ => rfl
    | cancelled => dsimp only; split <;> exact fun _ => rfl
  · exact h

theorem Composed.step (h : m.Composed) (hb : ¬m.Back []) : m.step.1.Composed := by
  intro hs
  by_cases hstop : m.stopped = true
  · exact (winds_step ⟨hstop, h hstop⟩ hb).halting.unasked
  · rw [(inborn_step (by simpa using hstop)).unstopped] at hs
    cases hs

/-- The flag is set where an event is shown, and there the machine waits for no line. -/
theorem Composed.advance (h : m.Composed) (ha : m.advance o s = .going s' m' ∨ m.advance o s = .resting s' m') :
    m'.Composed := by
  unfold Machine.advance at ha
  split at ha
  · split at ha
    · rcases ha with ha | ha <;> cases ha
      exact h.answer _
    · rcases ha with ha | ha <;> cases ha
      exact h
  · split at ha
    · rcases ha with ha | ha <;> cases ha
      exact h
    · rename_i hf
      have hstep := h.step fun hb => hf ((isFinished_iff m).2 hb)
      have hevent := unasking_step (m := m)
      split at ha
      · rename_i hs
        rw [hs] at hstep
        rcases ha with ha | ha <;> cases ha
        exact hstep
      · rename_i m₁ e hs
        rw [hs] at hevent
        have hcomposed : ∀ v, (m₁.heed v).Composed := fun v _ => waiting?_heed (hevent e rfl) v
        split at ha
        split at ha
        · rcases ha with ha | ha <;> cases ha
          exact hcomposed _
        · rcases ha with ha | ha <;> cases ha
          exact hcomposed _

/-- **At any moment of a run at which it is told to stop, it waits for no line.** -/
theorem During.halting {s₀ : σ} {m₀ : Machine} (h : During o s₀ m₀ s m) (hm₀ : m₀.Composed) (hs : m.stopped = true) :
    m.Halting := by
  have hc : m.Composed := by
    clear hs
    induction h with
    | start => exact hm₀
    | going _ ha ih => exact ih.advance o (.inl ha)
  exact ⟨hs, hc hs⟩

theorem finished?_eq_none (hb : ¬m.Back []) : m.finished? = none := by
  rw [← Option.not_isSome_iff_eq_none, ← isFinished_eq, isFinished_iff]
  exact hb

theorem finished?_of_back (hb : m.Back []) : ∃ result, m.finished? = some result :=
  Option.isSome_iff_exists.1 ((isFinished_eq m).symm.trans ((isFinished_iff m).2 hb))

/-- One step of a run that was stopped: the observer is shown at most a lap or some output. -/
theorem advance_of_halting (h : m.Halting) (hb : ¬m.Back []) (s : σ) :
    ∃ s' m', o.Hushed s s' ∧ m'.Halting ∧ m'.weight < m.weight ∧
      (m.advance o s = .going s' m' ∨ (m.advance o s = .resting s' m' ∧ ¬o.Patient)) := by
  have hw := winds_step h hb
  rw [advance_eq o s h.unasked (finished?_eq_none hb)]
  generalize m.step = r at hw
  obtain ⟨m₁, event⟩ := r
  cases event with
  | none => exact ⟨s, m₁, .refl, hw.halting, hw.lighter, .inl rfl⟩
  | some e =>
    have hquiet := hw.quiet e rfl
    obtain ⟨hhalting, hlighter⟩ := hw.halting.heed (o.see s m₁ e).2
    refine ⟨(o.see s m₁ e).1, m₁.heed (o.see s m₁ e).2, .single ⟨m₁, e, hquiet, rfl⟩, hhalting,
      Nat.lt_of_le_of_lt hlighter hw.lighter, ?_⟩
    dsimp only
    split
    · rename_i hcourse
      exact .inr ⟨rfl, fun hp => hp s m₁ e hquiet hcourse⟩
    · exact .inl rfl

/-- **A run that was stopped comes to rest**, and shows its observer laps and output only. If the observer does not
hold it there, its work is at its end. -/
theorem run_of_halting (h : m.Halting) (s : σ) : ∃ s' m', o.Hushed s s' ∧ (o.Patient → m'.Back []) ∧
    ∀ fuel > m.weight, m.run o fuel s = some (s', m') := by
  induction hn : m.weight using Nat.strongRecOn generalizing m s with
  | ind n ih =>
    subst hn
    by_cases hb : m.Back []
    · obtain ⟨result, hf⟩ := finished?_of_back hb
      refine ⟨s, m, .refl, fun _ => hb, fun fuel hfuel => ?_⟩
      obtain ⟨fuel, rfl⟩ := Nat.exists_eq_add_of_lt hfuel
      rw [run, advance_finished o s hf]
    · obtain ⟨s₁, m₁, hhushed, hhalting, hlighter, ha | ⟨ha, hp⟩⟩ := advance_of_halting o h hb s
      · obtain ⟨s', m', hhushed', hback, hrun⟩ := ih _ hlighter hhalting s₁ rfl
        refine ⟨s', m', hhushed.trans hhushed', hback, fun fuel hfuel => ?_⟩
        obtain ⟨fuel, rfl⟩ := Nat.exists_eq_add_of_lt hfuel
        rw [run, ha]
        exact hrun _ (by omega)
      · refine ⟨s₁, m₁, hhushed, fun hp' => absurd hp' hp, fun fuel hfuel => ?_⟩
        obtain ⟨fuel, rfl⟩ := Nat.exists_eq_add_of_lt hfuel
        rw [run, ha]

/-- A run that is told to stop at some moment comes to rest, and from that moment on shows laps and output only. -/
theorem During.run_of_stopped {s₀ : σ} {m₀ : Machine} (h : During o s₀ m₀ s m) (hm₀ : m₀.Composed)
    (hs : m.stopped = true) : ∃ (n : Nat) (s' : σ) (m' : Machine), o.Hushed s s' ∧ (o.Patient → m'.Back []) ∧
      ∀ fuel ≥ n, m₀.run o fuel s₀ = some (s', m') := by
  obtain ⟨n, hn⟩ := h.run
  obtain ⟨s', m', hhushed, hback, hrun⟩ := run_of_halting o (h.halting o hm₀ hs) s
  refine ⟨n + (m.weight + 1), s', m', hhushed, hback, fun fuel hfuel => ?_⟩
  obtain ⟨more, rfl⟩ := Nat.exists_eq_add_of_le hfuel
  rw [Nat.add_assoc, hn, hrun _ (by omega)]

end Machine

end Observers

end StepScript
