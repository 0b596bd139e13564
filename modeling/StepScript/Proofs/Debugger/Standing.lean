import StepScript.Debugger.Handle
import StepScript.Proofs.Debugger.Transparency
import StepScript.Proofs.Machine.Home

/-!
# How a controller stands between commands

A host starts sessions, steps, answers, stops and moves its breakpoints in any order, whether the commands fit or not.
Whenever a command has come back, the state of the controller tells what else it has: a session, a prompt, a snapshot, a
failure, and a highlight in the view (`AtRest`).

* `Orderly` is the part that holds at every moment, also while a session is going: one step keeps it (`Orderly.tick`),
  so does every command (`Orderly.perform`).
* A controller in order that is not going is at rest (`Orderly.atRest`): a session that has started and neither paused
  nor asked for a line would still be going.
* The run of a session at rest that is told to stop fails where it is, with a failure that is not taken down. So to stop
  a session is to forget it (`Orderly.stop_eq`).
* Sessions are told to stop from outside as well, at any moment and whatever they are doing, and runs leave. In order a
  controller is at all of these moments (`Moment.orderly`).
-/

namespace StepScript.Debugger

/-! ## What the view was told -/

/-- A highlight of the line has not been cleared. -/
def Outstanding (calls : List ViewCall) (line : Nat) : Prop :=
  ∃ before after, calls = before ++ .highlight line :: after ∧ .clear ∉ after

/-- Every highlight is followed at once by a snapshot of its line. -/
def Paired (calls : List ViewCall) : Prop :=
  ∀ before line after, calls = before ++ .highlight line :: after →
    ∃ s rest, after = .snapshot s :: rest ∧ s.line = line

section View

variable {xs ys : List ViewCall} {line : Nat}

/-- A call among two lists is in the first or in the second. -/
theorem split_of_append {x : ViewCall} {before after : List ViewCall} (h : xs ++ ys = before ++ x :: after) :
    (∃ mid, xs = before ++ x :: mid ∧ after = mid ++ ys) ∨ ∃ mid, before = xs ++ mid ∧ ys = mid ++ x :: after := by
  rcases List.append_eq_append_iff.1 h with ⟨mid, hb, hy⟩ | ⟨mid, hx, hy⟩
  · exact Or.inr ⟨mid, hb, hy⟩
  · cases mid with
    | nil => exact Or.inr ⟨[], by simpa using hx.symm, hy.symm⟩
    | cons z mid =>
      obtain ⟨rfl, rfl⟩ := List.cons.inj hy
      exact Or.inl ⟨mid, hx, rfl⟩

theorem outstanding_append :
    Outstanding (xs ++ ys) line ↔ Outstanding ys line ∨ (Outstanding xs line ∧ .clear ∉ ys) := by
  constructor
  · rintro ⟨before, after, h, hc⟩
    rcases split_of_append h with ⟨mid, hx, rfl⟩ | ⟨mid, -, hy⟩
    · exact Or.inr ⟨⟨before, mid, hx, fun hm => hc (List.mem_append_left _ hm)⟩,
        fun hm => hc (List.mem_append_right _ hm)⟩
    · exact Or.inl ⟨mid, after, hy, hc⟩
  · rintro (⟨before, after, rfl, hc⟩ | ⟨⟨before, after, rfl, hc⟩, hy⟩)
    · exact ⟨xs ++ before, after, by simp, hc⟩
    · exact ⟨before, after ++ ys, by simp, fun hm => (List.mem_append.1 hm).elim hc hy⟩

theorem not_outstanding_nil : ¬Outstanding [] line := by
  rintro ⟨before, after, h, -⟩
  cases before <;> cases h

theorem not_outstanding_cleared : ¬Outstanding (xs ++ [.clear]) line := by
  rw [outstanding_append]
  rintro (⟨before, after, h, -⟩ | ⟨-, h⟩)
  · rcases before with _ | ⟨_, _ | _⟩ <;> cases h
  · exact h (List.mem_singleton_self _)

/-- Of a pause, the highlight is outstanding. -/
theorem outstanding_shown (s : Snapshot) (h : ∀ line, ¬Outstanding xs line) :
    Outstanding (xs ++ [.highlight s.line, .snapshot s]) line ↔ s.line = line := by
  rw [outstanding_append]
  constructor
  · rintro (⟨before, after, hc, -⟩ | ⟨hx, -⟩)
    · rcases before with _ | ⟨_, _ | ⟨_, _ | _⟩⟩ <;> cases hc
      rfl
    · exact absurd hx (h line)
  · rintro rfl
    exact Or.inl ⟨[], [.snapshot s], rfl, by simp⟩

theorem Paired.append (hx : Paired xs) (hy : Paired ys) : Paired (xs ++ ys) := by
  intro before line after h
  rcases split_of_append h with ⟨mid, hmid, rfl⟩ | ⟨mid, -, hmid⟩
  · obtain ⟨s, rest, rfl, hs⟩ := hx before line mid hmid
    exact ⟨s, rest ++ ys, rfl, hs⟩
  · exact hy mid line after hmid

theorem paired_nil : Paired [] := by
  intro before line after h
  cases before <;> cases h

theorem Paired.cleared (h : Paired xs) : Paired (xs ++ [.clear]) := by
  refine h.append fun before line after hc => ?_
  rcases before with _ | ⟨_, _ | _⟩ <;> cases hc

theorem Paired.shown (h : Paired xs) (s : Snapshot) : Paired (xs ++ [.highlight s.line, .snapshot s]) := by
  refine h.append fun before line after hc => ?_
  rcases before with _ | ⟨_, _ | ⟨_, _ | _⟩⟩ <;> cases hc
  exact ⟨s, [], rfl, rfl⟩

end View

/-! ## What a host does -/

/-- Whether a deed fits a state: a session is started while there is none, stepped while it is paused and answered while
it runs. -/
def Deed.Fits {κ : Type} : Deed κ → State → Prop
  | debug _ _ _, state => state ≠ .paused ∧ state ≠ .running
  | step _, state => state = .paused
  | input _, state => state = .running
  | stop, _ => True
  | breakpoints _, _ => True

namespace Controller

open Machine

variable {κ : Type}

/-- What comes of a deed, with the rest that follows within so many steps: the state reached or the refusal, and the
controller. -/
def perform (c : Controller κ) (fuel : Nat) : Deed κ → Option (Except InvalidState State × Controller κ)
  | .debug source console entropy => c.debug fuel source console entropy
  | .step mode => c.step fuel mode
  | .input line => c.input fuel line
  | .stop => some (.ok c.stop.state, c.stop)
  | .breakpoints lines => some (.ok c.state, { c with breakpoints := lines })

/-- A controller in the hands of a host: a new one, or one whose latest command came back. -/
inductive Hosted : Controller κ → Prop
  | new (registry : Registry) (config : Config) (sink : Sink κ) (breakpoints : List Nat) :
      Hosted (.new registry config sink breakpoints)
  | deed {c c' : Controller κ} {fuel : Nat} {deed : Deed κ} {answer : Except InvalidState State} :
      Hosted c → c.perform fuel deed = some (answer, c') → Hosted c'

/-- How a controller stands between commands. -/
structure AtRest (c : Controller κ) : Prop where
  prepared : c.state ≠ .preparing
  /-- A session is alive exactly while it is paused or runs. -/
  alive : c.live.isSome = true ↔ c.state = .paused ∨ c.state = .running
  /-- It runs exactly while the program waits for a line. -/
  asks : c.prompt.isSome = true ↔ c.state = .running
  seen : c.state = .paused → c.snapshot.isSome = true
  failed : c.lastError.isSome = true → c.state = .stopped
  /-- A highlight is outstanding exactly while the session is paused, and on the line of the snapshot. -/
  lit : ∀ line, Outstanding c.view.toList line ↔ c.state = .paused ∧ ∃ s, c.snapshot = some s ∧ s.line = line
  paired : Paired c.view.toList

/-! ## What holds at every moment -/

/-- What holds of a controller at every moment, also while its session is going. -/
structure Orderly (c : Controller κ) : Prop where
  alive : c.live.isSome = c.isOpen
  /-- The machine of a session is at work on its program. -/
  working : ∀ live ∈ c.live, ∃ home, Working [] home .value live.machine
  heard : c.live.isSome = true → c.console.isSome = true
  asks : c.prompt.isSome = true → c.state = .running
  seen : c.state = .paused → c.snapshot.isSome = true
  failed : c.lastError.isSome = true → c.state = .stopped
  lit : ∀ line, Outstanding c.view.toList line ↔ c.state = .paused ∧ ∃ s, c.snapshot = some s ∧ s.line = line
  paired : Paired c.view.toList

section Orderly

variable {c c' : Controller κ}

/-- A controller in order that is not going is at rest. -/
theorem Orderly.atRest (h : c.Orderly) (hg : c.isGoing = false) : c.AtRest := by
  have halive : c.live.isSome = true ↔ c.isOpen = true := by rw [h.alive]
  -- an open session that neither is paused nor has asked would be going
  have hrest : c.isOpen = true → c.prompt = none → c.state = .paused := by
    intro ho hp
    have hl := halive.2 ho
    have hk := h.heard hl
    simp only [isOpen, State.isOpen, Bool.or_eq_true, beq_iff_eq] at ho
    simp only [isGoing, hl, hk, hp, Option.isNone_none, Bool.and_self, Bool.true_and, Bool.or_eq_false_iff,
      beq_eq_false_iff_ne] at hg
    rcases ho with (ho | ho) | ho
    · exact absurd ho hg.1
    · exact ho
    · exact absurd ho hg.2
  have hprepared : c.state ≠ .preparing := by
    intro hs
    have hp : c.prompt = none := by
      cases hp : c.prompt with
      | none => rfl
      | some prompt => cases hs.symm.trans (h.asks (by rw [hp]; rfl))
    cases hs.symm.trans (hrest (by simp [isOpen, hs]) hp)
  refine ⟨hprepared, ?_, ⟨h.asks, ?_⟩, h.seen, h.failed, h.lit, h.paired⟩
  · rw [halive]
    simp [isOpen, hprepared]
  · intro hs
    cases hp : c.prompt with
    | some prompt => rfl
    | none => cases hs.symm.trans (hrest (by simp [isOpen, hs]) hp)

theorem Orderly.lastError_eq_none (h : c.Orderly) (ho : c.isOpen = true) : c.lastError = none := by
  cases he : c.lastError with
  | none => rfl
  | some d =>
    have hs := h.failed (by rw [he]; rfl)
    simp [isOpen, hs] at ho

theorem Orderly.unlit (h : c.Orderly) (hs : c.state ≠ .paused) (line : Nat) : ¬Outstanding c.view.toList line :=
  fun ho => hs ((h.lit line).1 ho).1

/-- A controller without a session and with nothing lit is in order. -/
theorem orderly_closed (ho : c.isOpen = false) (hl : c.live = none) (hp : c.prompt = none)
    (hf : c.lastError.isSome = true → c.state = .stopped) (hu : ∀ line, ¬Outstanding c.view.toList line)
    (hv : Paired c.view.toList) : c.Orderly := by
  have hs : c.state ≠ .paused := fun hs => by simp [isOpen, hs] at ho
  refine ⟨by rw [hl, ho]; rfl, fun live h => ?_, fun h => ?_, fun h => ?_, fun h => absurd h hs, hf, fun line => ?_, hv⟩
  · rw [hl] at h
    cases h
  · rw [hl] at h
    cases h
  · rw [hp] at h
    cases h
  · exact ⟨fun h => absurd h (hu line), fun h => absurd h.1 hs⟩

theorem orderly_new (registry : Registry) (config : Config) (sink : Sink κ) (breakpoints : List Nat) :
    (new registry config sink breakpoints).Orderly :=
  orderly_closed rfl rfl rfl (fun h => by cases h) (fun _ => not_outstanding_nil) paired_nil

/-- A session that ends leaves the controller in order. -/
theorem orderly_finish (outcome : Except Diagnostic Unit) (he : c.lastError = none) (hv : Paired c.view.toList) :
    (c.finish outcome).Orderly := by
  obtain ⟨state, lastError, unasked, hrecord, hstate⟩ := c.record_eq outcome
  unfold finish
  rw [hrecord]
  have hclosed : state.isOpen = false := by rcases hstate with ⟨rfl, -⟩ | rfl <;> rfl
  refine orderly_closed hclosed rfl rfl (fun hf => ?_) (fun line => ?_) ?_
  · rcases hstate with ⟨-, rfl⟩ | rfl
    · simp [tell, he] at hf
    · rfl
  · simp only [tell, Array.toList_push]
    exact not_outstanding_cleared
  · simp only [tell, Array.toList_push]
    exact hv.cleared

/-- A session that comes to rest leaves the controller in order. -/
theorem orderly_rest (stepper : Stepper) {m : Machine} {home : Place} (hm : Working [] home .value m)
    (hk : c.console.isSome = true) (hp : c.prompt = none)
    (he : c.lastError = none) (hu : ∀ line, ¬Outstanding c.view.toList line) (hv : Paired c.view.toList) :
    (c.rest stepper m).Orderly := by
  unfold rest
  split
  · exact orderly_finish _ he hv
  · exact orderly_finish _ he hv
  · dsimp only
    split
    · refine ⟨rfl, fun _ hl => ⟨home, Option.some.inj hl ▸ hm⟩, fun _ => hk, fun _ => rfl, (fun h => by cases h),
        fun h => by simp [he] at h, fun line => ?_, hv⟩
      exact ⟨fun h => absurd h (hu line), fun h => by cases h.1⟩
    · refine ⟨rfl, fun _ hl => ⟨home, Option.some.inj hl ▸ hm⟩, fun _ => hk, fun h => by simp [tell, hp] at h,
        fun _ => rfl, fun h => by simp [tell, he] at h, fun line => ?_, ?_⟩
      · simp only [tell, Array.toList_push, List.append_assoc, List.singleton_append]
        rw [outstanding_shown _ hu]
        simp
      · simp only [tell, Array.toList_push, List.append_assoc, List.singleton_append]
        exact hv.shown _

/-- **One step of a session keeps the controller in order.** -/
theorem Orderly.tick (h : c.Orderly) : c.tick.Orderly := by
  by_cases hg : c.isGoing = true
  · obtain ⟨m, stepper, k, hl, hk⟩ := exists_of_isGoing hg
    have hp := prompt_of_isGoing hg
    have hs : c.state = .preparing ∨ c.state = .running := by
      simp only [isGoing, Bool.and_eq_true, Bool.or_eq_true, beq_iff_eq] at hg
      exact hg.2
    have hn : c.state ≠ .paused := by rcases hs with hs | hs <;> rw [hs] <;> decide
    have he := h.lastError_eq_none (by rcases hs with hs | hs <;> simp [isOpen, hs])
    obtain ⟨home, hw⟩ := h.working ⟨m, stepper⟩ hl
    rw [tick_eq hg hl hk]
    cases ha : m.advance (observer c.sink) (stepper, k) with
    | going s m' =>
      have halive := h.alive
      rw [hl] at halive
      refine ⟨halive, fun _ hl' => ?_, fun _ => rfl, h.asks, h.seen, h.failed, h.lit, h.paired⟩
      cases hl'
      exact ⟨home, hw.advance (by decide) (.inl ha)⟩
    | resting s m' => exact orderly_rest _ (hw.advance (by decide) (.inr ha)) rfl hp he (h.unlit hn) h.paired
  · rw [tick_of_rest (Bool.eq_false_iff.2 hg)]
    exact h

/-- What a step keeps, a session that comes to rest has kept. -/
theorem settle_induction {P : Controller κ → Prop} (tick : ∀ c, P c → P c.tick) : ∀ {fuel : Nat} {c : Controller κ},
    P c → c.settle fuel = some c' → P c' ∧ c'.isGoing = false
  | 0, c, h, hs => by
    rw [settle] at hs
    split at hs <;> cases hs
    exact ⟨h, Bool.eq_false_iff.2 ‹_›⟩
  | fuel + 1, c, h, hs => by
    rw [settle] at hs
    split at hs
    · exact settle_induction tick (tick c h) hs
    · cases hs
      exact ⟨h, Bool.eq_false_iff.2 ‹_›⟩

end Orderly

/-! ## Commands -/

section Commands

variable {c c' : Controller κ}

/-- Whatever a session was like, a start leaves the controller in order. -/
theorem Orderly.start (h : c.Orderly) {source : String} {console : κ} {entropy : Random}
    (hs : c.start source console entropy = .ok c') : c'.Orderly := by
  unfold Controller.start at hs
  split at hs
  · cases hs
  · rename_i ho
    have hn : c.state ≠ .paused := fun hp => ho (by simp [isOpen, hp])
    split at hs
    · cases hs
      exact orderly_finish _ rfl h.paired
    · rename_i program _
      cases hs
      have hp : c.prompt = none := c.unasked (Bool.eq_false_iff.2 ho)
      have hw := working_undertake (c.config.machine c.registry entropy) (.program program)
      rw [undertake_program rfl] at hw
      refine ⟨rfl, fun _ hl => ?_, fun _ => rfl, fun h => by simp [hp] at h, (fun h => by cases h),
        (fun h => by cases h), fun line => ?_, h.paired⟩
      · cases hl
        exact ⟨_, hw⟩
      · exact ⟨fun hl => absurd hl (h.unlit hn line), fun hl => by cases hl.1⟩

theorem Orderly.resume (h : c.Orderly) {mode : StepMode} (hs : c.resume mode = .ok c') : c'.Orderly := by
  unfold Controller.resume at hs
  split at hs
  · rename_i live hp hl
    cases hs
    have he := h.lastError_eq_none (by simp [isOpen, hp])
    refine ⟨rfl, fun _ hl' => ?_, fun _ => h.heard (by rw [hl]; rfl), fun _ => rfl, (fun h => by cases h), fun hf => ?_,
      fun line => ?_, ?_⟩
    · cases hl'
      exact h.working live hl
    · simp [tell, he] at hf
    · simp only [tell, Array.toList_push]
      exact ⟨fun hl => absurd hl not_outstanding_cleared, fun hl => by cases hl.1⟩
    · simp only [tell, Array.toList_push]
      exact h.paired.cleared
  · cases hs

theorem Orderly.provideInput (h : c.Orderly) {line : String} (hs : c.provideInput line = .ok c') : c'.Orderly := by
  unfold Controller.provideInput at hs
  split at hs
  · rename_i prompt live hp hl
    cases hs
    have ho : c.isOpen = true := by rw [← h.alive, hl]; rfl
    refine ⟨ho.symm, fun _ hl' => ?_, fun _ => h.heard (by rw [hl]; rfl), (fun h => by cases h), h.seen, h.failed,
      h.lit, h.paired⟩
    cases hl'
    obtain ⟨home, hw⟩ := h.working live hl
    exact ⟨home, working_answer hw (by decide) _⟩
  · cases hs

/-- A session that was told to stop is still in order. -/
theorem Orderly.interrupt (h : c.Orderly) : c.interrupt.Orderly := by
  unfold Controller.interrupt
  split
  · exact h
  · rename_i live hl
    have halive := h.alive
    have hheard := h.heard
    rw [hl] at halive hheard
    refine ⟨halive, fun _ hl' => ?_, hheard, h.asks, h.seen, h.failed, h.lit, h.paired⟩
    cases hl'
    obtain ⟨home, hw⟩ := h.working live hl
    have hstop : Working [] home .value live.machine.stop := hw.stopped true
    refine ⟨home, ?_⟩
    dsimp only
    split
    · exact working_answer hstop (by decide) _
    · split
      · exact hstop
      · exact working_refuse hstop _

/-- A session that is told to stop has the flag set, and keeps the rest but its work. -/
theorem exists_interrupt_stopped {live : Live} (hl : c.live = some live) :
    ∃ m, c.interrupt = { c with live := some { live with machine := m } } ∧ m.stopped = true := by
  unfold Controller.interrupt
  rw [hl]
  refine ⟨_, rfl, ?_⟩
  split
  · unfold answer
    split
    · rfl
    · rfl
  · split <;> rfl

@[simp] theorem interrupt_view (c : Controller κ) : c.interrupt.view = c.view := by
  unfold Controller.interrupt
  split <;> rfl

/-- To wait for the end of a run tells the view nothing. -/
@[simp] theorem conclude_view (c : Controller κ) : c.conclude.view = c.view := by
  unfold conclude
  split
  · split
    · split
      · exact record_view _ _
      · rfl
    · rfl
  · rfl

/-- A stop tells the view to clear, and nothing else. -/
theorem stop_view (c : Controller κ) : c.stop.view.toList = c.view.toList ++ [.clear] := by
  have hview : c.stop.view = c.interrupt.conclude.view.push .clear := rfl
  rw [hview, conclude_view, interrupt_view, Array.toList_push]

theorem Orderly.stop (h : c.Orderly) : c.stop.Orderly := by
  refine orderly_closed rfl rfl rfl (fun _ => rfl) (fun line => ?_) ?_
  · rw [stop_view]
    exact not_outstanding_cleared
  · rw [stop_view]
    exact h.paired.cleared

/-- The run of a session at rest that is told to stop has failed, where it was held or at its read. -/
theorem Orderly.exists_interrupt (h : c.Orderly) (hg : c.isGoing = false) {live : Live} (hl : c.live = some live) :
    ∃ m d, c.interrupt = { c with live := some { live with machine := m } } ∧ m.focus = .fail d ∧ d.isHalt = true := by
  obtain ⟨home, hw⟩ := h.working live hl
  cases hwait : live.machine.stop.waiting? with
  | some prompt =>
    obtain ⟨span, hfail⟩ := hw.fail_of_cancelled (by decide) hwait
    exact ⟨live.machine.stop.answer .cancelled, .halted span, by simp [Controller.interrupt, hl, hwait], hfail, rfl⟩
  | none =>
    exact ⟨live.machine.stop.refuse halted, halted, by simp [Controller.interrupt, hl, hwait, hg], rfl, rfl⟩

/-- **To stop a session at rest is to forget it**: its run fails at once and prints nothing any more, and that it was
stopped is no failure to be taken down. -/
theorem Orderly.stop_eq (h : c.Orderly) (hg : c.isGoing = false) : c.stop = (c.tell .clear).lose := by
  cases hl : c.live with
  | none =>
    have hinterrupt : c.interrupt = c := by simp [Controller.interrupt, hl]
    have hconclude : c.conclude = c := by simp [conclude, hl]
    rw [Controller.stop, hinterrupt, hconclude]
  | some live =>
    obtain ⟨m, d, hinterrupt, hfocus, hd⟩ := h.exists_interrupt hg hl
    obtain ⟨k, hk⟩ := Option.isSome_iff_exists.1 (h.heard (by rw [hl]; rfl))
    obtain ⟨m', hf, hrun⟩ := run_of_fail (closing c.sink) (live.stepper, k) hfocus
    have hlight : m.pending.length < m.weight + 1 := by
      rw [Machine.weight, hfocus]
      exact Nat.lt_succ_self _
    have hconclude : c.interrupt.conclude =
        { c.interrupt with prompt := none, state := .stopped, unasked := fun _ => rfl } := by
      rw [hinterrupt]
      simp only [conclude, hk, hrun _ hlight, hf, Except.map, record_of_halt _ hd]
    rw [Controller.stop, hconclude, hinterrupt]
    rfl

theorem Orderly.take (h : c.Orderly) {deed : Deed κ} (ht : c.take deed = .ok c') : c'.Orderly := by
  cases deed with
  | debug source console entropy => exact h.start ht
  | step mode => exact h.resume ht
  | input line => exact h.provideInput ht
  | stop =>
    cases ht
    exact h.stop
  | breakpoints lines =>
    cases ht
    exact ⟨h.alive, h.working, h.heard, h.asks, h.seen, h.failed, h.lit, h.paired⟩

/-- What was sent to a run has set the session going. -/
theorem Orderly.running_of_sent (h : c.Orderly) {deed : Deed κ} (hd : deed.isSent = true) (ht : c.take deed = .ok c') :
    c'.state = .running := by
  cases deed with
  | step mode =>
    simp only [Controller.take, Controller.resume] at ht
    split at ht <;> cases ht
    rfl
  | input line =>
    simp only [Controller.take, Controller.provideInput] at ht
    split at ht
    · rename_i hp _
      cases ht
      exact h.asks (by rw [hp]; rfl)
    · cases ht
  | debug | stop | breakpoints => cases hd

/-- A session that is given up after a command was sent to it leaves the controller in order. -/
theorem Orderly.lose (h : c.Orderly) {deed : Deed κ} (hd : deed.isSent = true) (ht : c.take deed = .ok c') :
    c'.lose.Orderly := by
  have hn : c'.state ≠ .paused := by rw [h.running_of_sent hd ht]; decide
  exact orderly_closed rfl rfl rfl (fun _ => rfl) ((h.take ht).unlit hn) (h.take ht).paired

/-- A command with the rest that follows leaves the controller in order and not going. -/
theorem Orderly.complete (h : c.Orderly) (hg : c.isGoing = false) {fuel : Nat}
    {taken : Except InvalidState (Controller κ)} {answer : Except InvalidState State}
    (ht : ∀ c₁, taken = .ok c₁ → c₁.Orderly) (hs : c.complete fuel taken = some (answer, c')) :
    c'.Orderly ∧ c'.isGoing = false := by
  cases taken with
  | error e =>
    obtain ⟨-, rfl⟩ := complete_error hs
    exact ⟨h, hg⟩
  | ok c₁ => exact settle_induction (fun _ => Orderly.tick) (ht c₁ rfl) (complete_ok hs).2

/-- **Every command leaves the controller in order**, and not going. -/
theorem Orderly.perform (h : c.Orderly) (hg : c.isGoing = false) {fuel : Nat} {deed : Deed κ}
    {answer : Except InvalidState State} (hs : c.perform fuel deed = some (answer, c')) :
    c'.Orderly ∧ c'.isGoing = false := by
  cases deed with
  | debug source console entropy => exact h.complete hg (fun _ => h.start) hs
  | step mode => exact h.complete hg (fun _ => h.resume) hs
  | input line => exact h.complete hg (fun _ => h.provideInput) hs
  | stop =>
    cases hs
    exact ⟨h.stop, rfl⟩
  | breakpoints lines =>
    cases hs
    have htaken : c.take (.breakpoints lines) = .ok { c with breakpoints := lines } := rfl
    exact ⟨h.take htaken, hg⟩

theorem Hosted.orderly (h : c.Hosted) : c.Orderly ∧ c.isGoing = false := by
  induction h with
  | new registry config sink breakpoints => exact ⟨orderly_new registry config sink breakpoints, rfl⟩
  | deed _ hs ih => exact ih.1.perform ih.2 hs

/-- What a command comes to: it fits and leads to a state, or it is refused and changes nothing. -/
theorem complete_cases {fuel : Nat} {taken : Except InvalidState (Controller κ)} {answer : Except InvalidState State}
    {fits : Prop} (hs : c.complete fuel taken = some (answer, c')) (hok : ∀ c₁, taken = .ok c₁ → fits)
    (herror : ∀ e, taken = .error e → ¬fits ∧ e.state = c.state) :
    (fits ∧ answer = .ok c'.state) ∨ ¬fits ∧ c' = c ∧ ∃ e, answer = .error e ∧ e.state = c.state := by
  cases taken with
  | error e =>
    obtain ⟨ha, hc⟩ := complete_error hs
    obtain ⟨hf, he⟩ := herror e rfl
    exact Or.inr ⟨hf, hc, e, ha, he⟩
  | ok c₁ => exact Or.inl ⟨hok c₁ rfl, (complete_ok hs).1⟩

theorem AtRest.isOpen_iff (h : c.AtRest) : c.isOpen = true ↔ c.state = .paused ∨ c.state = .running := by
  simp [isOpen, h.prepared]

/-- A command fits the state and leads to another one, or it is refused and changes nothing. -/
theorem AtRest.perform_cases (h : c.AtRest) {fuel : Nat} {deed : Deed κ} {answer : Except InvalidState State}
    (hs : c.perform fuel deed = some (answer, c')) :
    (deed.Fits c.state ∧ answer = .ok c'.state) ∨
      ¬deed.Fits c.state ∧ c' = c ∧ ∃ e, answer = .error e ∧ e.state = c.state := by
  cases deed with
  | debug source console entropy =>
    refine complete_cases hs (fun c₁ ht => ?_) fun e ht => ?_
    · unfold start at ht
      split at ht
      · cases ht
      · rename_i ho
        exact not_or.1 (mt h.isOpen_iff.2 ho)
    · unfold start at ht
      split at ht
      · rename_i ho
        cases ht
        exact ⟨fun hf => (h.isOpen_iff.1 ho).elim hf.1 hf.2, rfl⟩
      · dsimp only at ht
        split at ht <;> cases ht
  | step mode =>
    refine complete_cases hs (fun c₁ ht => ?_) fun e ht => ?_
    · unfold resume at ht
      split at ht
      · assumption
      · cases ht
    · unfold resume at ht
      split at ht
      · cases ht
      · rename_i hn
        cases ht
        refine ⟨fun hf => ?_, rfl⟩
        obtain ⟨live, hl⟩ := Option.isSome_iff_exists.1 (h.alive.2 (Or.inl hf))
        exact hn live hf hl
  | input line =>
    refine complete_cases hs (fun c₁ ht => ?_) fun e ht => ?_
    · unfold provideInput at ht
      split at ht
      · rename_i hp _
        exact h.asks.1 (by rw [hp]; rfl)
      · cases ht
    · unfold provideInput at ht
      split at ht
      · cases ht
      · rename_i hn
        cases ht
        refine ⟨fun hf => ?_, rfl⟩
        obtain ⟨live, hl⟩ := Option.isSome_iff_exists.1 (h.alive.2 (Or.inr hf))
        obtain ⟨prompt, hp⟩ := Option.isSome_iff_exists.1 (h.asks.2 hf)
        exact hn prompt live hp hl
  | stop =>
    cases hs
    exact Or.inl ⟨trivial, rfl⟩
  | breakpoints lines =>
    cases hs
    exact Or.inl ⟨trivial, rfl⟩

end Commands

/-! ## Every moment -/

/-- The moments of a controller: from command to command and from step to step of a session that is going, with sessions
told to stop from outside and runs that have left. -/
inductive Moment : Controller κ → Prop
  | new (registry : Registry) (config : Config) (sink : Sink κ) (breakpoints : List Nat) :
      Moment (.new registry config sink breakpoints)
  | take {c c' : Controller κ} {deed : Deed κ} : Moment c → c.take deed = .ok c' → Moment c'
  | tick {c : Controller κ} : Moment c → Moment c.tick
  | interrupt {c : Controller κ} : Moment c → Moment c.interrupt
  | lose {c c' : Controller κ} {deed : Deed κ} : Moment c → deed.isSent = true → c.take deed = .ok c' → Moment c'.lose

/-- At every moment a controller is in order. -/
theorem Moment.orderly {c : Controller κ} (h : c.Moment) : c.Orderly := by
  induction h with
  | new registry config sink breakpoints => exact orderly_new registry config sink breakpoints
  | take _ ht ih => exact ih.take ht
  | tick _ ih => exact ih.tick
  | interrupt _ ih => exact ih.interrupt
  | lose _ hd ht ih => exact ih.lose hd ht

/-- **A controller is found in order after every command.** Whatever a host did before, the state tells whether there is
a session, a prompt, a snapshot, a failure and a highlight; to stop a session leaves no failure behind; and a command
that does not fit the state is refused and changes neither the controller nor what its view was told. -/
theorem at_rest_after_commands {c : Controller κ} (h : c.Hosted) :
    c.AtRest ∧ (c.live.isSome = true → c.stop.state = .stopped ∧ c.stop.lastError = none) ∧
      ∀ fuel deed answer c', c.perform fuel deed = some (answer, c') →
        (deed.Fits c.state ∧ answer = .ok c'.state) ∨
          ¬deed.Fits c.state ∧ c' = c ∧ ∃ e, answer = .error e ∧ e.state = c.state := by
  obtain ⟨ho, hg⟩ := h.orderly
  have hr := ho.atRest hg
  refine ⟨hr, fun hl => ⟨rfl, ?_⟩, fun fuel deed answer c' => hr.perform_cases⟩
  rw [ho.stop_eq hg]
  exact ho.lastError_eq_none (by rw [← ho.alive, hl])

/-- A session that is paused, sent on to a read, refused a step and stopped. -/
theorem at_rest_after_commands_printThenRead :
    ∃ c₁ c₂ c₃ : Controller Script, c₁.state = .paused ∧ c₂.state = .running ∧ c₃.state = .stopped ∧
      (∃ line, Outstanding c₁.view.toList line) ∧ c₂.prompt.isSome = true ∧ c₂.stop.lastError = none ∧
      (∀ fuel answer c', c₂.perform fuel (.step .into) = some (answer, c') → c' = c₂) ∧ c₃.live = none := by
  let c : Controller Script := .new .empty .default (scriptSink none) [1]
  have h : ((c.debug 9 printThenRead (.ofInputs [])).bind fun r₁ => (r₁.2.step 9 .onward).map fun r₂ =>
      (r₁.2.state, r₂.2.state)) = some (.paused, .running) := by
    rw [debug, start, compile_printThenRead]
    decide +kernel
  simp only [Option.bind_eq_some_iff, Option.map_eq_some_iff, Prod.mk.injEq] at h
  obtain ⟨⟨a₁, c₁⟩, h₁, ⟨a₂, c₂⟩, h₂, hs₁, hs₂⟩ := h
  have hp₁ : c.perform 9 (.debug printThenRead (.ofInputs []) (.ofSeed 0)) = some (a₁, c₁) := h₁
  have hp₂ : c₁.perform 9 (.step .onward) = some (a₂, c₂) := h₂
  have hp₃ : c₂.perform 0 .stop = some (.ok .stopped, c₂.stop) := rfl
  have hh₁ : c₁.Hosted := .deed (.new .empty .default (scriptSink none) [1]) hp₁
  have hh₂ : c₂.Hosted := .deed hh₁ hp₂
  have hh₃ : c₂.stop.Hosted := .deed hh₂ hp₃
  obtain ⟨hr₁, -, -⟩ := at_rest_after_commands hh₁
  obtain ⟨hr₂, hstop, hrefused⟩ := at_rest_after_commands hh₂
  obtain ⟨hr₃, -, -⟩ := at_rest_after_commands hh₃
  obtain ⟨s, hs⟩ := Option.isSome_iff_exists.1 (hr₁.seen hs₁)
  refine ⟨c₁, c₂, c₂.stop, hs₁, hs₂, rfl, ⟨s.line, (hr₁.lit _).2 ⟨hs₁, s, hs, rfl⟩⟩, hr₂.asks.2 hs₂,
    (hstop (hr₂.alive.2 (Or.inr hs₂))).2, fun fuel answer c' hc => ?_, ?_⟩
  · rcases hrefused fuel _ answer c' hc with ⟨hf, -⟩ | ⟨-, hc, -⟩
    · cases hs₂.symm.trans hf
    · exact hc
  · cases hl : c₂.stop.live with
    | none => rfl
    | some live => cases (hr₃.alive.1 (by rw [hl]; rfl)) <;> contradiction

end Controller

end StepScript.Debugger
