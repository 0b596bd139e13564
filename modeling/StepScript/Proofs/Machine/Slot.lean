import StepScript.Proofs.Machine.Moves
import StepScript.Session

/-!
# A hook in the slot and a hook at hand

A session runs with what is in its slot. A run with a hook in the slot is the run that the hook watches by itself, and a
run with nothing there is the run that nobody watches (`Outside.run_some`, `Outside.run_none`): an observer that stands
for another one, state by state, has the same runs (`Observer.Stands.run`).

So the runs of a session with a hook for the one run, or none, are runs under that hook (`Session.drive_eq`,
`Session.executeWith_ok`, `Session.execute_ok`, `Session.call_ok`).
-/

namespace StepScript

/-! ## Observers that stand for one another -/

/-- The progress of another observer. -/
def Progress.map {σ τ : Type} (f : σ → τ) : Progress σ → Progress τ
  | going s m => .going (f s) m
  | resting s m => .resting (f s) m

/-- In each state the second observer decides and answers what the first does in the state that it stands for. -/
structure Observer.Stands {σ τ : Type} (o : Observer σ) (o' : Observer τ) (f : σ → τ) : Prop where
  see : ∀ s m e, o'.see (f s) m e = (f (o.see s m e).1, (o.see s m e).2)
  ask : ∀ s prompt, o'.ask (f s) prompt = (f (o.ask s prompt).1, (o.ask s prompt).2)

section Stands

variable {σ τ : Type} {o : Observer σ} {o' : Observer τ} {f : σ → τ} (h : o.Stands o' f)
include h

theorem Observer.Stands.advance (s : σ) (m : Machine) : m.advance o' (f s) = (m.advance o s).map f := by
  unfold Machine.advance
  split
  · rename_i prompt _
    rw [h.ask]
    rcases o.ask s prompt with ⟨s', _ | reply⟩ <;> rfl
  · split
    · rfl
    · rcases m.step with ⟨m₁, _ | e⟩
      · rfl
      · simp only [h.see]
        cases (o.see s m₁ e).2.course <;> rfl

/-- **An observer has the runs of the observer that it stands for.** -/
theorem Observer.Stands.run (fuel : Nat) (s : σ) (m : Machine) :
    m.run o' fuel (f s) = (m.run o fuel s).map fun r => (f r.1, r.2) := by
  induction fuel generalizing s m with
  | zero => rfl
  | succ fuel ih =>
    rw [Machine.run, Machine.run, h.advance]
    cases m.advance o s with
    | going s' m' => exact ih s' m'
    | resting s' m' => rfl

end Stands

namespace Outside

variable {η : Type}

/-- A hook that watches a run by itself stands for itself in the slot. -/
theorem stands_some (h : Hook η) : h.observer.Stands observer fun s => ⟨some ⟨h, s.1⟩, s.2⟩ :=
  ⟨fun _ _ e => by cases e <;> rfl, fun _ _ => rfl⟩

/-- The hook that does nothing stands for an empty slot. -/
theorem stands_none : Hook.idle.observer.Stands (observer (η := η)) fun s => ⟨none, s.2⟩ :=
  ⟨fun _ _ e => by cases e <;> rfl, fun _ _ => rfl⟩

theorem run_some (h : Hook η) (fuel : Nat) (state : η) (console : Console) (m : Machine) :
    m.run observer fuel ⟨some ⟨h, state⟩, console⟩ =
      (m.run h.observer fuel (state, console)).map fun r => (⟨some ⟨h, r.1.1⟩, r.1.2⟩, r.2) :=
  (stands_some h).run fuel (state, console) m

theorem run_none (fuel : Nat) (console : Console) (m : Machine) :
    m.run (observer (η := η)) fuel ⟨none, console⟩ =
      (m.run Hook.idle.observer fuel ((), console)).map fun r => (⟨none, r.1.2⟩, r.2) :=
  stands_none.run fuel ((), console) m

end Outside

/-! ## Runs of a session -/

namespace Session

variable {η : Type} {s : Session} {h : Hook η} {state : η} {fuel : Nat} {source : String}

/-- A machine that is driven with a hook in the slot is watched by that hook. -/
theorem drive_eq (s : Session) (h : Hook η) (state : η) (fuel : Nat) (m : Machine) :
    s.drive h state fuel m = (m.run h.observer fuel (state, s.console)).bind fun r =>
      r.2.finished?.map fun result => (result, r.1.1, ⟨r.2, r.1.2⟩) := by
  have hrun := Outside.run_some h fuel state s.console m
  unfold drive Hooked.drive
  dsimp only [under]
  rw [hrun]
  rcases m.run h.observer fuel (state, s.console) with _ | ⟨⟨state', console⟩, m'⟩
  · rfl
  · dsimp only [Option.map_some, Option.bind_some]
    cases m'.finished? <;> rfl

/-- With nothing in the slot a machine is driven as under the hook that does nothing. -/
theorem drive_bare (s : Session) (fuel : Nat) (m : Machine) :
    (s.bare.drive fuel m).map (fun r => (r.1, r.2.toSession)) =
      (s.drive .idle () fuel m).map fun r => (r.1, r.2.2) := by
  have hrun := Outside.run_none (η := Unit) fuel s.console m
  rw [drive_eq]
  unfold Hooked.drive
  dsimp only [bare]
  rw [hrun]
  rcases m.run Hook.idle.observer fuel ((), s.console) with _ | ⟨⟨state', console⟩, m'⟩
  · rfl
  · dsimp only [Option.map_some, Option.bind_some]
    cases m'.finished? <;> rfl

/-- A text that does not compile leaves the session alone. -/
theorem executeWith_error {d : Diagnostic} (hc : compile source = .error d) :
    s.executeWith h state fuel source = some (.error d, state, s) := by
  rw [executeWith, Hooked.execute, hc]
  rfl

theorem executeWith_ok {program : Program} (hc : compile source = .ok program) :
    s.executeWith h state fuel source = s.drive h state fuel (s.machine.begin program) := by
  rw [executeWith, Hooked.execute, hc]
  rfl

theorem execute_error {d : Diagnostic} (hc : compile source = .error d) :
    s.execute fuel source = some (.error d, s) := by
  rw [execute, Hooked.execute, hc]
  rfl

theorem execute_ok {program : Program} (hc : compile source = .ok program) :
    s.execute fuel source = (s.drive .idle () fuel (s.machine.begin program)).map fun r => (r.1, r.2.2) := by
  rw [execute, Hooked.execute, hc]
  exact drive_bare s fuel _

variable {x : String} {args : List Value} {span : Span}

theorem call_error {d : Diagnostic} (hx : s.global x = .error d) : s.call fuel x args span = some (.error d, s) := by
  have hbare : s.bare.global x = .error d := hx
  rw [call, Hooked.call, hbare]
  rfl

theorem call_ok {callee : Value} (hx : s.global x = .ok callee) : s.call fuel x args span =
    (s.drive .idle () fuel (s.machine.invoke callee args span)).map fun r => (r.1, r.2.2) := by
  have hbare : s.bare.global x = .ok callee := hx
  rw [call, Hooked.call, hbare]
  exact drive_bare s fuel _

end Session

end StepScript
