import Mathlib.Logic.Function.Iterate
import StepScript.Proofs.Debugger.Pauses
import StepScript.Proofs.Debugger.Standing
import StepScript.Proofs.Machine.Stopping

/-!
# Stop is final

From the moment that a run is told to stop, whoever told it, no statement is announced any more and no line is asked
for; what is left of the run is laps and output, and it ends (`stop_is_final`). This holds of runs of a session under
any hook, and of debug sessions, which then end without another pause. So a controller that has told a session to stop
does not wait for its end in vain (`Controller.Orderly.exists_conclude`).
-/

namespace StepScript

/-- Whether an event concerns the console. -/
def Event.isOutput : Event → Bool
  | write _ | writeLine _ | clear => true
  | visit _ | lap => false

/-- An observer with a hook and a console that was shown laps and output: the hook has seen the laps, and the console
the output. -/
theorem Observer.Hushed.laps_and_output {η κ : Type} {o : Observer (η × κ)} (lap : η → η) (output : κ → Event → κ)
    (hlap : ∀ s k m, (o.see (s, k) m .lap).1 = (lap s, k))
    (houtput : ∀ s k m e, e.isOutput = true → (o.see (s, k) m e).1 = (s, output k e)) {s s' : η × κ}
    (h : o.Hushed s s') : ∃ (laps : Nat) (written : List Event), (∀ e ∈ written, e.isOutput = true) ∧
      s' = (lap^[laps] s.1, written.foldl output s.2) := by
  induction h with
  | refl => exact ⟨0, [], List.forall_mem_nil _, rfl⟩
  | tail _ hs ih =>
    obtain ⟨laps, written, hwritten, rfl⟩ := ih
    obtain ⟨m, e, hquiet, rfl⟩ := hs
    cases hout : e.isOutput with
    | true =>
      refine ⟨laps, written ++ [e], List.forall_mem_append.2 ⟨hwritten, List.forall_mem_singleton.2 hout⟩, ?_⟩
      rw [houtput _ _ _ _ hout, List.foldl_append]
      rfl
    | false =>
      cases e with
      | visit line => exact absurd rfl (hquiet line)
      | lap => exact ⟨laps + 1, written, hwritten, by rw [hlap, Function.iterate_succ_apply']⟩
      | write | writeLine | clear => cases hout

/-! ## Sessions -/

section Sessions

open Machine

variable {η : Type} (h : Hook η)

/-- A hook holds no run at a lap or at output. -/
theorem Hook.patient : h.observer.Patient := by
  rintro ⟨state, console⟩ m e hquiet
  cases e with
  | visit line => exact absurd rfl (hquiet line)
  | lap | write | writeLine | clear => nofun

theorem composed_undertake (m : Machine) (t : Task) : (m.undertake t).Composed := fun _ => by cases t <;> rfl

/-- A task that is stopped at some moment ends; up to then its hook sees laps and its console output. -/
theorem drive_of_stopped {s : Session} {t : Task} {state₀ state : η} {console : Console} {m : Machine}
    (hc : During h.observer (state₀, s.console) (s.machine.undertake t) (state, console) m) (hs : m.stopped = true) :
    ∃ (n laps : Nat) (written : List Event) (m' : Machine) (result : Except Diagnostic Value),
      (∀ e ∈ written, e.isOutput = true) ∧ ∀ fuel ≥ n, s.drive h state₀ fuel (s.machine.undertake t) =
        some (result, h.lap^[laps] state, ⟨m', written.foldl Console.see console⟩) := by
  obtain ⟨n, s', m', hhushed, hback, hrun⟩ := hc.run_of_stopped h.observer (composed_undertake _ t) hs
  obtain ⟨laps, written, hwritten, rfl⟩ := hhushed.laps_and_output h.lap Console.see
    (fun _ _ _ => rfl) (fun _ _ _ e he => by cases e <;> first | rfl | cases he)
  obtain ⟨result, hresult⟩ := finished?_of_back (hback h.patient)
  refine ⟨n, laps, written, m', result, hwritten, fun fuel hfuel => ?_⟩
  rw [Session.drive_eq, hrun fuel hfuel]
  simp only [Option.bind_some, hresult, Option.map_some]

end Sessions

/-! ## Single tasks -/

namespace Machine

/-- A statement that a stopped machine comes to fails, and changes nothing. -/
theorem step_statement_of_stopped {m : Machine} (h : m.stopped = true) (s : Stmt) :
    (m.undertake (.statement s)).step = ({ m with focus := .fail (.halted s.span) }, none) := by
  show (m.turn (.start s)).startStatement s = _
  unfold startStatement
  rw [if_pos (show (m.turn (.start s)).stopped = true from h)]
  rfl

/-- Work of a stopped machine comes back to its base. -/
theorem Working.back_of_halting {base : List Pending} {home : Place} {p : Product} {m : Machine}
    (h : Working base home p m) (hm : m.Halting) : ∃ n, ((fun m : Machine => m.step.1)^[n] m).Back base := by
  induction hn : m.weight using Nat.strongRecOn generalizing m with
  | ind n ih =>
    subst hn
    by_cases hb : m.Back base
    · exact ⟨0, hb⟩
    · -- A machine at its very end would be back at its base as well.
      have hend : ¬m.Back [] := by
        rintro ⟨hp, ho⟩
        obtain ⟨inner, hi, -⟩ := h
        rw [hp] at hi
        obtain ⟨-, rfl⟩ := List.append_eq_nil_iff.1 hi.symm
        exact hb ⟨hp, ho⟩
      have hw := winds_step hm hend
      obtain ⟨n, hback⟩ := ih _ hw.lighter (working_step h hb) hw.halting rfl
      exact ⟨n + 1, hback⟩

/-- An expression that a stopped machine evaluates comes to an outcome. -/
theorem back_expression_of_stopped {m : Machine} (h : m.stopped = true) (e : Expr) :
    ∃ n, ((fun m : Machine => m.step.1)^[n] (m.undertake (.expression e))).Back m.pending :=
  (working_undertake m (.expression e)).back_of_halting ⟨h, rfl⟩

end Machine

/-! ## Debug sessions -/

namespace Debugger

open Machine

section Stepper

variable {κ : Type} (sink : Sink κ)

theorem observer_patient : (observer sink).Patient := by
  rintro ⟨stepper, k⟩ m e hquiet
  cases e with
  | visit line => exact absurd rfl (hquiet line)
  | lap | write | writeLine | clear => nofun

/-- A controller that waits for the end of a run holds it nowhere. -/
theorem closing_patient : (closing sink).Patient := by
  intro s m e _
  unfold closing
  dsimp only
  split
  · nofun
  · assumption

end Stepper

namespace Controller

variable {κ : Type}

section Rest

variable {c : Controller κ} {stepper : Stepper} {m : Machine}

/-- At rest, a session has the machine that came to rest, or is over. -/
theorem live_rest (c : Controller κ) (stepper : Stepper) (m : Machine) :
    (c.rest stepper m).live = some ⟨m, stepper⟩ ∨ (c.rest stepper m).live = none := by
  unfold rest
  split
  · exact .inr rfl
  · exact .inr rfl
  · dsimp only
    split <;> exact .inl rfl

theorem isGoing_rest : (c.rest stepper m).isGoing = false := by
  unfold rest
  split
  · rfl
  · rfl
  · dsimp only
    split
    · simp [isGoing]
    · simp [isGoing]

end Rest

/-! ### A stopped session -/

section Stopped

variable {c c' : Controller κ} {m m' : Machine} {stepper stepper' : Stepper} {k k' : κ}

/-- The machine of a session, if there is one, does not wait for a line when it was told to stop. -/
def Composed (c : Controller κ) : Prop := ∀ live ∈ c.live, live.machine.Composed

theorem composed_of_none (h : c.live = none) : c.Composed := by
  intro live hl
  rw [h] at hl
  cases hl

theorem Composed.tick (h : c.Composed) : c.tick.Composed := by
  by_cases hg : c.isGoing = true
  · obtain ⟨m, stepper, k, hl, hk⟩ := exists_of_isGoing hg
    have hm := h ⟨m, stepper⟩ hl
    rw [tick_eq hg hl hk]
    cases ha : m.advance (observer c.sink) (stepper, k) with
    | going s m' =>
      rintro live ⟨⟩
      exact hm.advance _ (.inl ha)
    | resting s m' =>
      intro live hlive
      rcases live_rest { c with live := none, console := some s.2 } s.1 m' with hr | hr
      · rw [hr] at hlive
        cases hlive
        exact hm.advance _ (.inr ha)
      · rw [hr] at hlive
        cases hlive
  · unfold Controller.tick
    rw [if_neg hg]
    exact h

/-- Whoever tells a session to stop cancels its read. -/
theorem Composed.interrupt (h : c.Orderly) : c.interrupt.Composed := by
  unfold Controller.interrupt
  split
  · rename_i hl
    exact composed_of_none hl
  · rename_i live hl
    obtain ⟨home, hw⟩ := h.working live hl
    rintro _ ⟨⟩ -
    dsimp only
    split
    · rename_i hwait
      obtain ⟨prompt, hwait⟩ := Option.isSome_iff_exists.1 hwait
      obtain ⟨span, hfail⟩ := hw.fail_of_cancelled (by decide) hwait
      rw [waiting?, hfail]
    · rename_i hwait
      split
      · simpa using hwait
      · rfl

theorem Composed.take (h : c.Composed) {deed : Deed κ} (ht : c.take deed = .ok c') : c'.Composed := by
  cases deed with
  | debug source console entropy =>
    simp only [Controller.take, Controller.start] at ht
    split at ht
    · cases ht
    · split at ht
      · cases ht
        exact composed_of_none rfl
      · cases ht
        rintro live ⟨⟩
        exact fun h => by cases h
  | step mode =>
    simp only [Controller.take, Controller.resume] at ht
    split at ht
    · rename_i live _ hl
      cases ht
      rintro _ ⟨⟩
      exact h live hl
    · cases ht
  | input line =>
    simp only [Controller.take, Controller.provideInput] at ht
    split at ht
    · rename_i live _ hl
      cases ht
      rintro _ ⟨⟩
      exact (h live hl).answer _
    · cases ht
  | stop =>
    cases ht
    exact composed_of_none rfl
  | breakpoints lines =>
    cases ht
    exact h

/-- **At every moment a session that was told to stop waits for no line.** -/
theorem Moment.composed (h : c.Moment) : c.Composed := by
  induction h with
  | new => exact composed_of_none rfl
  | take _ ht ih => exact ih.take ht
  | tick _ ih => exact ih.tick
  | interrupt hc _ => exact Composed.interrupt hc.orderly
  | lose => exact composed_of_none rfl

/-- A session settles as its machine runs. -/
theorem settle_of_run : ∀ {fuel : Nat} {c : Controller κ} {m : Machine} {stepper : Stepper} {k : κ},
    c.isGoing = true → c.live = some ⟨m, stepper⟩ → c.console = some k →
    m.run (observer c.sink) fuel (stepper, k) = some ((stepper', k'), m') →
    c.settle fuel = some (rest { c with live := none, console := some k' } stepper' m')
  | 0, _, _, _, _, _, _, _, hr => by cases hr
  | fuel + 1, c, m, stepper, k, hg, hl, hk, hr => by
    have ht := tick_eq hg hl hk
    rw [run] at hr
    rw [settle, if_pos hg, ht]
    cases ha : m.advance (observer c.sink) (stepper, k) with
    | going s m₁ =>
      rw [ha] at hr
      have hg₁ : ({ c with live := some ⟨m₁, s.1⟩, console := some s.2 } : Controller κ).isGoing = true := by
        simp only [isGoing, hl, hk] at hg ⊢
        exact hg
      exact settle_of_run hg₁ rfl rfl hr
    | resting s m₁ =>
      rw [ha] at hr
      cases hr
      cases fuel with
      | zero => rw [settle, isGoing_rest]; rfl
      | succ fuel => rw [settle, isGoing_rest]; rfl

/-- The session is over: nothing of it is left but its outcome, and the view was told to clear and nothing else. -/
structure Ends (c c' : Controller κ) : Prop where
  live : c'.live = none
  prompt : c'.prompt = none
  state : c'.state = .completed ∨ c'.state = .stopped
  snapshot : c'.snapshot = c.snapshot
  view : c'.view = c.view.push .clear

theorem ends_finish (outcome : Except Diagnostic Unit) : c.Ends (c.finish outcome) := by
  obtain ⟨state, lastError, unasked, hrecord, hstate⟩ := c.record_eq outcome
  unfold finish
  rw [hrecord]
  exact ⟨rfl, rfl, hstate.imp_left And.left, rfl, rfl⟩

theorem ends_rest (c : Controller κ) (stepper : Stepper) (hb : m.Back []) :
    c.Ends (c.rest stepper m) ∧ (c.rest stepper m).console = c.console := by
  obtain ⟨result, hf⟩ := finished?_of_back hb
  cases result with
  | ok v =>
    simp only [rest, hf]
    exact ⟨ends_finish _, rfl⟩
  | error d =>
    simp only [rest, hf]
    exact ⟨ends_finish _, record_console _ _⟩

/-- A session that was told to stop ends without another pause or read. -/
theorem settle_of_stopped (h : c.Moment) (hg : c.isGoing = true) (hl : c.live = some ⟨m, stepper⟩)
    (hk : c.console = some k) (hs : m.stopped = true) :
    ∃ (n : Nat) (written : List Event) (c' : Controller κ), (∀ e ∈ written, e.isOutput = true) ∧ c.Ends c' ∧
      c'.console = some (written.foldl (fun k e => (c.sink.see k e).1) k) ∧ ∀ fuel ≥ n, c.settle fuel = some c' := by
  obtain ⟨s', m', hhushed, hback, hrun⟩ :=
    run_of_halting (observer c.sink) ⟨hs, h.composed ⟨m, stepper⟩ hl hs⟩ (stepper, k)
  obtain ⟨laps, written, hwritten, rfl⟩ := hhushed.laps_and_output Stepper.hook.lap
    (fun k e => (c.sink.see k e).1) (fun _ _ _ => rfl) (fun _ _ _ e he => by cases e <;> first | rfl | cases he)
  obtain ⟨hends, hconsole⟩ := ends_rest { c with live := none, console := some (written.foldl _ k) }
    (Stepper.hook.lap^[laps] stepper) (hback (observer_patient c.sink))
  refine ⟨m.weight + 1, written, _, hwritten, ⟨hends.live, hends.prompt, hends.state, hends.snapshot, hends.view⟩,
    hconsole, fun fuel hfuel => ?_⟩
  exact settle_of_run hg hl hk (hrun fuel hfuel)

/-- **A session that is told to stop ends**, whatever it was doing: the run that its controller waits for comes to an
outcome, and that is taken down. -/
theorem Orderly.exists_conclude (h : c.Orderly) {live : Live} (hl : c.live = some live) :
    ∃ (outcome : Except Diagnostic Unit) (console : κ),
      c.interrupt.conclude = { c.interrupt with console := some console }.record outcome := by
  obtain ⟨k, hk⟩ := Option.isSome_iff_exists.1 (h.heard (by rw [hl]; rfl))
  obtain ⟨m, hinterrupt, hs⟩ := exists_interrupt_stopped hl
  have hunasked := Composed.interrupt h { live with machine := m } (by rw [hinterrupt]; rfl) hs
  obtain ⟨⟨stepper, k'⟩, m', -, hback, hrun⟩ :=
    run_of_halting (closing c.sink) ⟨hs, hunasked⟩ (live.stepper, k)
  obtain ⟨result, hf⟩ := finished?_of_back (hback (closing_patient c.sink))
  refine ⟨result.map fun _ => (), k', ?_⟩
  rw [hinterrupt]
  simp only [conclude, hk, hrun _ (Nat.lt_succ_self _), hf]

end Stopped

end Controller

end Debugger

open Machine Debugger in
/-- **Stop is final.** Whoever watches a task, and at whatever moment it is told to stop, from then on is shown no
statement and asked for no line, and the run comes to rest. So a task of a session under any hook ends, and from that
moment on its hook sees laps only and its console output only; and a debug session that is told to stop while it is going
ends without another pause or prompt. In a machine that was told to stop, a statement fails at once where it stands and
changes nothing, and an expression comes to an outcome, whatever it calls. -/
theorem stop_is_final :
    (∀ (σ : Type) (o : Observer σ) (t : Task) (m₀ m : Machine) (s₀ s : σ), During o s₀ (m₀.undertake t) s m →
      m.stopped = true → ∃ (n : Nat) (s' : σ) (m' : Machine), o.Hushed s s' ∧
        ∀ fuel ≥ n, (m₀.undertake t).run o fuel s₀ = some (s', m')) ∧
    (∀ (η : Type) (h : Hook η) (s : Session) (t : Task) (state₀ state : η) (console : Console) (m : Machine),
      During h.observer (state₀, s.console) (s.machine.undertake t) (state, console) m → m.stopped = true →
      ∃ (n laps : Nat) (written : List Event) (m' : Machine) (result : Except Diagnostic Value),
        (∀ e ∈ written, e.isOutput = true) ∧ ∀ fuel ≥ n, s.drive h state₀ fuel (s.machine.undertake t) =
          some (result, h.lap^[laps] state, ⟨m', written.foldl Console.see console⟩)) ∧
    (∀ (κ : Type) (c : Controller κ) (m : Machine) (stepper : Stepper) (k : κ), c.Moment → c.isGoing = true →
      c.live = some ⟨m, stepper⟩ → c.console = some k → m.stopped = true →
      ∃ (n : Nat) (written : List Event) (c' : Controller κ), (∀ e ∈ written, e.isOutput = true) ∧ c.Ends c' ∧
        c'.console = some (written.foldl (fun k e => (c.sink.see k e).1) k) ∧ ∀ fuel ≥ n, c.settle fuel = some c') ∧
    (∀ (m : Machine) (s : Stmt), m.stopped = true →
      (m.undertake (.statement s)).step = ({ m with focus := .fail (.halted s.span) }, none)) ∧
    ∀ (m : Machine) (e : Expr), m.stopped = true →
      ∃ n, ((fun m : Machine => m.step.1)^[n] (m.undertake (.expression e))).Back m.pending := by
  refine ⟨?_, ?_, ?_, ?_, ?_⟩
  · intro σ o t m₀ m s₀ s hc hs
    obtain ⟨n, s', m', hhushed, -, hrun⟩ := hc.run_of_stopped o (composed_undertake m₀ t) hs
    exact ⟨n, s', m', hhushed, hrun⟩
  · intro η h s t state₀ state console m hc hs
    exact drive_of_stopped h hc hs
  · intro κ c m stepper k h hg hl hk hs
    exact c.settle_of_stopped h hg hl hk hs
  · intro m s hs
    exact step_statement_of_stopped hs s
  · intro m e hs
    exact back_expression_of_stopped hs e

/-- An endless loop, `while (true) etb3("a");`. -/
def endlessLoop : Stmt :=
  .loop (.literal (.boolean true) ⟨7, 11, 1⟩) (.print (.literal (.text "a") ⟨18, 21, 1⟩) true ⟨13, 23, 1⟩) ⟨0, 23, 1⟩

open Machine in
/-- An endless loop ends if its hook stops it at the first statement of its body, which is written but not repeated. -/
theorem stop_is_final_endlessLoop :
    let s : Session := .new .empty .default (.script (.ofInputs []))
    let h : Hook ProbeLog := (⟨false, some 2, none, ""⟩ : Probe).hook
    ∃ (n laps : Nat) (written : List Event) (m' : Machine) (result : Except Diagnostic Value),
      (∀ e ∈ written, e.isOutput = true) ∧
      ∀ fuel ≥ n, s.drive h .empty fuel (s.machine.undertake (.statement endlessLoop)) =
        some (result, h.lap^[laps] ⟨2, #[]⟩, ⟨m', written.foldl Console.see s.console⟩) := by
  intro s h
  obtain ⟨m, hc, hs⟩ : ∃ m, During h.observer (.empty, s.console) (s.machine.undertake (.statement endlessLoop))
      (⟨2, #[]⟩, s.console) m ∧ m.stopped = true :=
    ⟨_, .going (.going (.going (.going (.going .start rfl) rfl) rfl) rfl) rfl, rfl⟩
  exact stop_is_final.2.1 ProbeLog h s (.statement endlessLoop) .empty ⟨2, #[]⟩ s.console m hc hs

end StepScript
