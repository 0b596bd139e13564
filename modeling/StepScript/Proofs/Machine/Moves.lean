import StepScript.Machine.Hook
import StepScript.Proofs.Machine.Work

/-!
# Runs as sequences of moves

A move is whatever can happen to a machine from one moment to the next (`Move`): a step, a step with an event and any
decision about it, an answer to a read, or a change of the stop flag by someone else. `Carried base m shown m'` says
that moves lead from `m` to `m'`, that the machine was not back at `base` before the last of them, and that `shown` is
what the steps showed to the outside.

* Moves go on with the work that a machine is at (`Move.working`, `Carried.working`).
* A run under an observer is such a sequence (`carried_of_run`), and so is the part of it in which a task is done
  (`Meanwhile.carried`); the observer is shown all that there is to see.
* The hook in the slot is called for all that is shown, and is in the slot again whatever it answered
  (`Outside.foldl_notice`).
-/

namespace StepScript

/-- What a step shows: an event, and the machine after the step. -/
abbrev Shown := Machine × Event

namespace Machine

/-- What can happen to a machine from one moment to the next. -/
inductive Move : Machine → List Shown → Machine → Prop
  | step {m m' : Machine} : m.step = (m', none) → Move m [] m'
  | event {m m' : Machine} {e : Event} (v : Verdict) : m.step = (m', some e) → Move m [(m', e)] (m'.heed v)
  | answer {m : Machine} {prompt : String} (r : Reply) : m.focus = .await prompt → Move m [] (m.answer r)
  /-- The flag is set or cleared from outside. -/
  | flag (m : Machine) (stopped : Bool) : Move m [] { m with stopped := stopped }

/-- Moves up to a moment, none of them from a machine that was back at `base`. -/
inductive Carried (base : List Pending) : Machine → List Shown → Machine → Prop
  | refl (m : Machine) : Carried base m [] m
  | move {m m' m'' : Machine} {xs ys : List Shown} :
      ¬m.Back base → Move m xs m' → Carried base m' ys m'' → Carried base m (xs ++ ys) m''

section Moves

variable {base : List Pending} {home : Place} {p : Product} {m m' : Machine} {xs : List Shown}

theorem Working.stopped (h : Working base home p m) (stopped : Bool) :
    Working base home p { m with stopped := stopped } := h

/-- A decision about an event goes on with the work. -/
theorem Working.heed (h : Working base home p m) (v : Verdict) : Working base home p (m.heed v) := by
  have hs : Working base home p (if v.stop then m.stop else m) := by
    split
    · exact h.stopped true
    · exact h
  unfold Machine.heed
  cases v.course with
  | proceed | hold => exact hs
  | refuse d => exact working_refuse hs d

/-- **A move goes on with the work.** -/
theorem Move.working (hm : Move m xs m') (h : Working base home p m) (hp : p ≠ .line) (hb : ¬m.Back base) :
    Working base home p m' := by
  cases hm with
  | step hs =>
    have := working_step h hb
    rwa [hs] at this
  | event v hs =>
    have := working_step h hb
    rw [hs] at this
    exact this.heed v
  | answer r _ => exact working_answer h hp r
  | flag stopped => exact h.stopped stopped

/-- **Moves go on with the work.** -/
theorem Carried.working (hc : Carried base m xs m') (h : Working base home p m) (hp : p ≠ .line) :
    Working base home p m' := by
  induction hc with
  | refl => exact h
  | move hb hm _ ih => exact ih (hm.working h hp hb)

end Moves

/-! ## Runs -/

theorem isFinished_iff (m : Machine) : m.isFinished = true ↔ m.Back [] := by
  obtain ⟨focus, pending, here, calls, store, stopped, cursor, latest, settings⟩ := m
  cases pending <;> cases focus <;> simp [isFinished, Back, Focus.isOutcome]

theorem focus_of_waiting? {m : Machine} {prompt : String} (h : m.waiting? = some prompt) : m.focus = .await prompt := by
  unfold waiting? at h
  split at h
  · rename_i hm
    rw [hm, Option.some.inj h]
  · cases h

end Machine

/-- What there is to know of an observer, kept up to date with what it is shown. -/
structure Observer.Notes {σ α : Type} (o : Observer σ) (look : σ → α) (notice : α → Shown → α) : Prop where
  see : ∀ s m e, look (o.see s m e).1 = notice (look s) (m, e)
  ask : ∀ s prompt, look (o.ask s prompt).1 = look s

/-- An observer of whom nothing is known. -/
theorem Observer.notes_nothing {σ : Type} (o : Observer σ) : o.Notes (fun _ => ()) fun _ _ => () :=
  ⟨fun _ _ _ => rfl, fun _ _ => rfl⟩

namespace Machine

section Notes

variable {σ α : Type} {o : Observer σ} {look : σ → α} {notice : α → Shown → α} (hn : o.Notes look notice) {s s' : σ}
  {m m' : Machine}
include hn

/-- A watched step that goes on is a move, and the observer is shown what it shows. -/
theorem move_of_going (ha : m.advance o s = .going s' m') :
    ¬m.Back [] ∧ ∃ xs, Move m xs m' ∧ look s' = xs.foldl notice (look s) := by
  unfold advance at ha
  split at ha
  · rename_i prompt hf
    refine ⟨?_, [], ?_⟩
    · intro hb
      rw [Back, hf] at hb
      cases hb.2
    · have hask := hn.ask s prompt
      split at ha
      · rename_i r hr
        cases ha
        rw [hr] at hask
        exact ⟨.answer r hf, hask⟩
      · cases ha
  · split at ha
    · cases ha
    · rename_i hnot
      refine ⟨fun hb => hnot ((isFinished_iff m).2 hb), ?_⟩
      split at ha
      · rename_i hs
        cases ha
        exact ⟨[], .step hs, rfl⟩
      · rename_i m₁ e hs
        have hsee := hn.see s m₁ e
        split at ha
        rename_i s₁ v hv
        rw [hv] at hsee
        split at ha
        · cases ha
        · cases ha
          exact ⟨[(m₁, e)], .event v hs, hsee⟩

/-- A watched step that comes to rest is a last move, or none. -/
theorem carried_of_resting (ha : m.advance o s = .resting s' m') :
    ∃ xs, Carried [] m xs m' ∧ look s' = xs.foldl notice (look s) := by
  unfold advance at ha
  split at ha
  · rename_i prompt _
    have hask := hn.ask s prompt
    split at ha
    · cases ha
    · rename_i hr
      cases ha
      rw [hr] at hask
      exact ⟨[], .refl m, hask⟩
  · split at ha
    · cases ha
      exact ⟨[], .refl m, rfl⟩
    · rename_i hnot
      have hb : ¬m.Back [] := fun hb => hnot ((isFinished_iff m).2 hb)
      split at ha
      · cases ha
      · rename_i m₁ e hs
        have hsee := hn.see s m₁ e
        split at ha
        rename_i s₁ v hv
        rw [hv] at hsee
        split at ha
        · cases ha
          exact ⟨[(m₁, e)] ++ [], .move hb (.event v hs) (.refl _), hsee⟩
        · cases ha

/-- **A run is a sequence of moves**, and its observer is shown everything that they show. -/
theorem carried_of_run : ∀ {fuel : Nat} {s : σ} {m : Machine}, m.run o fuel s = some (s', m') →
    ∃ xs, Carried [] m xs m' ∧ look s' = xs.foldl notice (look s)
  | 0, _, _, hr => by cases hr
  | fuel + 1, s, m, hr => by
    rw [run] at hr
    split at hr
    · rename_i s₁ m₁ ha
      obtain ⟨hb, xs, hm, hx⟩ := move_of_going hn ha
      obtain ⟨ys, hc, hy⟩ := carried_of_run hr
      exact ⟨xs ++ ys, .move hb hm hc, by rw [hy, hx, List.foldl_append]⟩
    · rename_i ha
      cases hr
      exact carried_of_resting hn ha

end Notes

/-- A watched step goes on with the work. -/
theorem Working.advance {σ : Type} {o : Observer σ} {home : Place} {p : Product} {s s' : σ} {m m' : Machine}
    (h : Working [] home p m) (hp : p ≠ .line) (ha : m.advance o s = .going s' m' ∨ m.advance o s = .resting s' m') :
    Working [] home p m' := by
  rcases ha with ha | ha
  · obtain ⟨hb, xs, hm, -⟩ := move_of_going o.notes_nothing ha
    exact hm.working h hp hb
  · obtain ⟨xs, hc, -⟩ := carried_of_resting o.notes_nothing ha
    exact hc.working h hp

/-- A machine that is told to stop at a read fails there once the read is cancelled. -/
theorem Working.fail_of_cancelled {base : List Pending} {home : Place} {p : Product} {m : Machine} {prompt : String}
    (h : Working base home p m) (hp : p ≠ .line) (hwait : m.stop.waiting? = some prompt) :
    ∃ span, (m.stop.answer .cancelled).focus = .fail (.halted span) := by
  have hawait : m.focus = .await prompt := focus_of_waiting? hwait
  obtain ⟨keep, span, rest, hpending⟩ := h.reply hp hawait
  exact ⟨span, by simp [answer, Machine.stop, hawait, hpending, turn]⟩

/-- A run that fails goes through all of its work without a word to its observer. -/
theorem run_of_fail {σ : Type} (o : Observer σ) (s : σ) {m : Machine} {d : Diagnostic} (hm : m.focus = .fail d) :
    ∃ m', m'.finished? = some (.error d) ∧ ∀ fuel, m.pending.length < fuel → m.run o fuel s = some (s, m') := by
  induction hp : m.pending generalizing m with
  | nil =>
    have hf : m.finished? = some (.error d) := by rw [finished?, hp, hm]
    refine ⟨m, hf, fun fuel hfuel => ?_⟩
    obtain ⟨fuel, rfl⟩ := Nat.exists_eq_succ_of_ne_zero (Nat.ne_zero_of_lt hfuel)
    rw [run, Machine.advance, hm]
    dsimp only
    rw [if_pos (by rw [isFinished_eq, hf]; rfl)]
  | cons w rest ih =>
    obtain ⟨here, calls, hstep⟩ := step_of_fail hm hp
    obtain ⟨m', hf, hrun⟩ := ih (m := { m with pending := rest, here := here, calls := calls }) hm rfl
    refine ⟨m', hf, fun fuel hfuel => ?_⟩
    obtain ⟨fuel, rfl⟩ := Nat.exists_eq_succ_of_ne_zero (Nat.ne_zero_of_lt hfuel)
    have hnot : m.isFinished = false := by rw [isFinished, hp]
    rw [run, Machine.advance, hm]
    dsimp only
    rw [hnot, hstep]
    exact hrun fuel (Nat.lt_of_succ_lt_succ hfuel)

/-- The moments of a run while work is done on top of `base`, up to the one at which the machine is back there. -/
inductive Meanwhile {σ : Type} (o : Observer σ) (base : List Pending) : σ → Machine → σ → Machine → Prop
  | refl (s : σ) (m : Machine) : Meanwhile o base s m s m
  | going {s s₁ s' : σ} {m m₁ m' : Machine} : ¬m.Back base → m.advance o s = .going s₁ m₁ →
      Meanwhile o base s₁ m₁ s' m' → Meanwhile o base s m s' m'

/-- So is the part of a run in which some work is done. -/
theorem Meanwhile.carried {σ α : Type} {o : Observer σ} {look : σ → α} {notice : α → Shown → α}
    (hn : o.Notes look notice) {base : List Pending} {s s' : σ} {m m' : Machine} (h : Meanwhile o base s m s' m') :
    ∃ xs, Carried base m xs m' ∧ look s' = xs.foldl notice (look s) := by
  induction h with
  | refl s m => exact ⟨[], .refl m, rfl⟩
  | going hb ha _ ih =>
    obtain ⟨-, xs, hm, hx⟩ := move_of_going hn ha
    obtain ⟨ys, hc, hy⟩ := ih
    exact ⟨xs ++ ys, .move hb hm hc, by rw [hy, hx, List.foldl_append]⟩

end Machine

/-! ## Hooks -/

section Hooks

variable {η : Type}

/-- What becomes of the state of a hook when it is shown an event. -/
def Hook.notice (h : Hook η) (state : η) : Shown → η
  | (m, .visit line) => (h.before state m line).1
  | (_, .lap) => h.lap state
  | _ => state

/-- A hook that watches a run is called for every event. -/
theorem Hook.notes (h : Hook η) : h.observer.Notes Prod.fst h.notice :=
  ⟨fun _ _ e => by cases e <;> rfl, fun _ _ => rfl⟩

namespace Outside

/-- What becomes of a slot when an event is shown: the hook in it is called. -/
def notice (slot : Option (Mounted η)) (x : Shown) : Option (Mounted η) :=
  slot.map fun mounted => { mounted with state := mounted.hook.notice mounted.state x }

/-- A run calls the hook in its slot for every event. -/
theorem notes : (observer : Observer (Outside η)).Notes slot notice := by
  refine ⟨fun o m e => ?_, fun _ _ => rfl⟩
  obtain ⟨slot, console⟩ := o
  cases slot <;> cases e <;> rfl

/-- **What is shown leaves the hook in its slot that was there**, with the state that it has come to. -/
theorem foldl_notice (slot : Option (Mounted η)) (xs : List Shown) :
    xs.foldl notice slot =
      slot.map fun mounted => { mounted with state := xs.foldl mounted.hook.notice mounted.state } := by
  induction xs generalizing slot with
  | nil => cases slot <;> rfl
  | cons x xs ih =>
    rw [List.foldl_cons, ih]
    cases slot <;> rfl

end Outside

end Hooks

end StepScript
