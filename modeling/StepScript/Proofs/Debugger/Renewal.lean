import Mathlib.Logic.Function.Iterate
import StepScript.Proofs.Debugger.Standing

/-!
# A controller whose session is over is as good as new

A host conducts a controller turn by turn: a deed, with handles of sessions pulled before it and while it goes on
(`Desk.turn`). After every turn it can see how the controller stands, and what the turn told the view and the console
(`Report`, `Desk.conduct`).

* A turn without handles is a command of the controller (`Desk.perform_eq`), so turns lead to every controller that a
  host can have in its hands (`Desk.exists_after_of_hosted`).
* What a controller has of a session is gone when the session is over (`Controller.Orderly.over`), or is overwritten by
  the next start (`Controller.start_eq_new`).
* A session is started with a flag of its own. From then on the desk goes in step with one on which that was the first
  start: the flags of earlier sessions, which their handles still set, are looked at by nobody (`Desk.Renews`).
* Together: from the next start on, the reports are those of a new controller (`Desk.as_good_as_new`).
-/

namespace StepScript.Debugger

variable {κ : Type}

/-! ## What a host sees -/

/-- The turn without its handles. -/
def Turn.alone (t : Turn κ) : Turn κ := ⟨t.deed, t.fuel, [], fun _ => [], false⟩

/-- What a host sees after a turn. -/
structure Report (κ : Type) where
  /-- What came of the deed, unless it is still going on. -/
  answer : Option (Except DebugError State)
  state : State
  snapshot : Option Snapshot
  prompt : Option String
  lastError : Option Diagnostic
  /-- Whether there is a session to have a handle of. -/
  handed : Bool
  /-- What the view was told in this turn. -/
  view : Array ViewCall
  console : Option κ

namespace Desk

/-- How a host finds the controller. -/
def report (d : Desk κ) (answer : Option (Except DebugError State)) : Report κ :=
  { answer
    state := d.controller.state
    snapshot := d.controller.snapshot
    prompt := d.controller.prompt
    lastError := d.controller.lastError
    handed := d.handle?.isSome
    view := d.controller.view
    console := d.controller.console }

/-- The desk once the host has read what the view was told. -/
def read (d : Desk κ) : Desk κ := { d with controller := d.controller.takeView.2 }

/-- What a host sees turn by turn, up to a command that does not come back. -/
def conduct (d : Desk κ) : List (Turn κ) → List (Report κ)
  | [] => []
  | t :: turns =>
    let came := d.read.turn t
    came.2.report came.1 :: if came.1.isSome then came.2.conduct turns else []

/-- The controller after some turns, if all their commands came back. -/
def after (d : Desk κ) : List (Turn κ) → Option (Desk κ)
  | [] => some d
  | t :: turns =>
    match d.turn t with
    | (some _, d) => d.after turns
    | (none, _) => none

end Desk

/-! ## Turns without handles -/

section Alone

variable {c : Controller κ}

theorem Controller.iterate_tick_of_rest (hg : c.isGoing = false) (n : Nat) : Controller.tick^[n] c = c :=
  Function.iterate_fixed (tick_of_rest hg) n

/-- A session that settles does so after as many steps as it may take. -/
theorem Controller.settle_eq (fuel : Nat) (c : Controller κ) :
    c.settle fuel = if (Controller.tick^[fuel] c).isGoing then none else some (Controller.tick^[fuel] c) := by
  induction fuel generalizing c with
  | zero => rfl
  | succ fuel ih =>
    rw [settle]
    split
    · exact ih c.tick
    · rename_i hg
      rw [iterate_tick_of_rest (Bool.eq_false_iff.2 hg), if_neg hg]

end Alone

namespace Desk

variable {d : Desk κ}

theorem settle_alone (fuel : Nat) (d : Desk κ) :
    settle (fun _ => []) fuel d = { d with controller := Controller.tick^[fuel] d.controller } := by
  induction fuel generalizing d with
  | zero => rfl
  | succ fuel ih =>
    rw [settle]
    split
    · exact ih { d with controller := d.controller.tick }
    · rename_i hg
      rw [Controller.iterate_tick_of_rest (Bool.eq_false_iff.2 hg)]

@[simp] theorem accept_controller (d : Desk κ) (c : Controller κ) (deed : Deed κ) :
    (d.accept c deed).controller = c := by
  cases deed with
  | stop =>
    unfold accept
    dsimp only
    split <;> rfl
  | debug | step | input | breakpoints => rfl

/-- What a deed comes to with the rest that follows, as long as it comes to rest. -/
theorem perform_eq {c : Controller κ} (hg : c.isGoing = false) (fuel : Nat) (deed : Deed κ) :
    c.perform fuel deed = c.complete fuel (c.take deed) := by
  have hrest (c' : Controller κ) (hg' : c'.isGoing = false) : c.complete fuel (.ok c') = some (.ok c'.state, c') := by
    simp only [Controller.complete, Controller.settle_eq, Controller.iterate_tick_of_rest hg', hg']
    rfl
  cases deed with
  | debug | step | input => rfl
  | stop => exact (hrest _ rfl).symm
  | breakpoints lines => exact (hrest { c with breakpoints := lines } hg).symm

/-- **A turn without handles is a command of the controller.** -/
theorem turn_of_perform (hg : d.controller.isGoing = false) {t : Turn κ} {answer : Except InvalidState State}
    {c : Controller κ} (hp : d.controller.perform t.fuel t.deed = some (answer, c)) :
    ∃ d', d.turn t.alone = (some (answer.mapError DebugError.invalid), d') ∧ d'.controller = c := by
  rw [perform_eq hg] at hp
  unfold turn respond
  simp only [Turn.alone, List.foldl_nil, Bool.and_false, Bool.false_eq_true, if_false, settle_alone,
    accept_controller]
  cases htake : d.controller.take t.deed with
  | error e =>
    rw [htake] at hp
    cases hp
    exact ⟨_, rfl, rfl⟩
  | ok c₁ =>
    rw [htake, Controller.complete, Controller.settle_eq] at hp
    cases hgoing : (Controller.tick^[t.fuel] c₁).isGoing with
    | true =>
      rw [hgoing] at hp
      cases hp
    | false =>
      rw [hgoing] at hp
      cases hp
      refine ⟨_, Prod.ext ?_ rfl, rfl⟩
      simp only [reply?, hgoing]
      rfl

/-! ## What holds after some turns -/

theorem after_append (turns : List (Turn κ)) (t : Turn κ) {answer : Except DebugError State} {d₁ d' : Desk κ}
    (h : d.after turns = some d₁) (ht : d₁.turn t = (some answer, d')) : d.after (turns ++ [t]) = some d' := by
  induction turns generalizing d with
  | nil =>
    cases h
    simp only [List.nil_append, after, ht]
  | cons u turns ih =>
    rw [after] at h
    rw [List.cons_append, after]
    split at h
    · exact ih h
    · cases h

/-- Every controller in the hands of a host is reached by turns. -/
theorem exists_after_of_hosted {c : Controller κ} (h : c.Hosted) :
    ∃ registry config sink breakpoints turns d,
      (Desk.new registry config sink breakpoints : Desk κ).after turns = some d ∧ d.controller = c := by
  induction h with
  | new registry config sink breakpoints => exact ⟨registry, config, sink, breakpoints, [], _, rfl, rfl⟩
  | @deed c c' fuel deed answer hc hs ih =>
    obtain ⟨registry, config, sink, breakpoints, turns, d, hafter, rfl⟩ := ih
    let t : Turn κ := ⟨deed, fuel, [], fun _ => [], false⟩
    obtain ⟨d', hturn, rfl⟩ := turn_of_perform hc.orderly.2 (t := t) hs
    exact ⟨registry, config, sink, breakpoints, turns ++ [t], d', after_append turns t hafter hturn, rfl⟩

end Desk

/-- What every step of a controller keeps: its deeds, a step of its session, a stop from outside, and the loss of a run
that something was sent to. -/
structure Lasting (P : Controller κ → Prop) : Prop where
  take : ∀ {c c' : Controller κ} {deed : Deed κ}, P c → c.take deed = .ok c' → P c'
  tick : ∀ {c : Controller κ}, P c → P c.tick
  interrupt : ∀ {c : Controller κ}, P c → P c.interrupt
  lose : ∀ {c c' : Controller κ} {deed : Deed κ}, P c → deed.isSent = true → c.take deed = .ok c' → P c'.lose

section Lasting

variable {P : Controller κ → Prop} {d d' : Desk κ}

theorem Lasting.pulls (hP : Lasting P) (h : P d.controller) (hs : List Handle) :
    P (hs.foldl Desk.pull d).controller := by
  induction hs generalizing d with
  | nil => exact h
  | cons handle hs ih =>
    refine ih ?_
    unfold Desk.pull
    dsimp only
    split
    · exact hP.interrupt h
    · exact h

theorem Lasting.settle (hP : Lasting P) (h : P d.controller) (amid : Nat → List Handle) (fuel : Nat) :
    P (Desk.settle amid fuel d).controller := by
  induction fuel generalizing d with
  | zero => exact h
  | succ fuel ih =>
    rw [Desk.settle]
    split
    · let pulled := (amid fuel).foldl Desk.pull d
      exact ih (d := { pulled with controller := pulled.controller.tick }) (hP.tick (hP.pulls h (amid fuel)))
    · exact h

theorem Lasting.turn (hP : Lasting P) (h : P d.controller) (t : Turn κ) : P (d.turn t).2.controller := by
  have hpulls := hP.pulls h t.before
  unfold Desk.turn Desk.respond
  split
  · exact hpulls
  · rename_i c hc
    split
    · rename_i hsent
      simp only [Bool.and_eq_true] at hsent
      exact hP.lose hpulls hsent.1.1 hc
    · refine hP.settle ?_ t.amid t.fuel
      rw [Desk.accept_controller]
      exact hP.take hpulls hc

/-- **Turns keep what every step keeps.** -/
theorem Lasting.after (hP : Lasting P) (h : P d.controller) {turns : List (Turn κ)} (ha : d.after turns = some d') :
    P d'.controller := by
  induction turns generalizing d with
  | nil =>
    cases ha
    exact h
  | cons t turns ih =>
    have ht := hP.turn h t
    rw [Desk.after] at ha
    split at ha
    · rename_i hturn
      rw [hturn] at ht
      exact ih ht ha
    · cases ha

end Lasting

namespace Controller

/-- The moments of a controller are those that its steps lead to. -/
theorem lasting_moment : Lasting (Moment (κ := κ)) := ⟨Moment.take, Moment.tick, Moment.interrupt, Moment.lose⟩

section Gear

variable {c : Controller κ}

/-- What a controller debugs with. -/
def gear (c : Controller κ) : Registry × Config × Sink κ := (c.registry, c.config, c.sink)

theorem gear_record (outcome : Except Diagnostic Unit) : (c.record outcome).gear = c.gear := by
  obtain ⟨_, _, _, h, -⟩ := c.record_eq outcome
  rw [h]
  rfl

theorem gear_rest (stepper : Stepper) (m : Machine) : (c.rest stepper m).gear = c.gear := by
  unfold rest
  split
  · exact gear_record _
  · exact gear_record _
  · dsimp only
    split <;> rfl

theorem gear_tick : c.tick.gear = c.gear := by
  by_cases hg : c.isGoing = true
  · obtain ⟨m, stepper, k, hl, hk⟩ := exists_of_isGoing hg
    rw [tick_eq hg hl hk]
    cases m.advance (observer c.sink) (stepper, k) with
    | going s m => rfl
    | resting s m => exact gear_rest _ _
  · rw [tick_of_rest (Bool.eq_false_iff.2 hg)]

theorem gear_interrupt : c.interrupt.gear = c.gear := by
  unfold interrupt
  split <;> rfl

theorem gear_conclude : c.conclude.gear = c.gear := by
  unfold conclude
  split
  · split
    · split
      · exact gear_record _
      · rfl
    · rfl
  · rfl

theorem gear_take {deed : Deed κ} {c' : Controller κ} (ht : c.take deed = .ok c') : c'.gear = c.gear := by
  cases deed with
  | debug source console entropy =>
    simp only [take, start] at ht
    split at ht
    · cases ht
    · split at ht
      · cases ht
        exact gear_record _
      · cases ht
        rfl
  | step mode =>
    simp only [take, resume] at ht
    split at ht <;> cases ht
    rfl
  | input line =>
    simp only [take, provideInput] at ht
    split at ht <;> cases ht
    rfl
  | stop =>
    cases ht
    exact gear_conclude.trans gear_interrupt
  | breakpoints lines =>
    cases ht
    rfl

theorem lasting_gear (gear : Registry × Config × Sink κ) : Lasting (fun c => c.gear = gear) :=
  ⟨fun h ht => (gear_take ht).trans h, fun h => gear_tick.trans h, fun h => gear_interrupt.trans h,
    fun h _ ht => (gear_take ht).trans h⟩

end Gear

/-! ## The next session -/

variable {c : Controller κ}

/-- A controller whose session is over has nothing of it left but what it shows. -/
theorem Orderly.over (h : c.Orderly) (hs : c.isOpen = false) : c.live = none :=
  Option.not_isSome_iff_eq_none.1 (by rw [h.alive, hs]; decide)

/-- **What an earlier session has left is overwritten by a start.** -/
theorem start_eq_new (hs : c.isOpen = false) (source : String) (console : κ) (entropy : Random) :
    ∃ c', c.takeView.2.start source console entropy = .ok c' ∧
      (new c.registry c.config c.sink c.breakpoints).start source console entropy = .ok c' := by
  have hprompt := c.unasked hs
  obtain ⟨registry, config, sink, state, live, outlet, snapshot, prompt, lastError, breakpoints, view, unasked⟩ := c
  cases hprompt
  have hclosed : (takeView ⟨registry, config, sink, state, live, outlet, snapshot, none, lastError, breakpoints,
      view, unasked⟩).2.isOpen = false := hs
  have hnew : (new registry config sink breakpoints : Controller κ).isOpen = false := rfl
  unfold start
  rw [hclosed, hnew]
  cases compile source with
  | ok program => exact ⟨_, rfl, rfl⟩
  | error d => exact ⟨_, rfl, rfl⟩

end Controller

/-! ## Handles of earlier sessions -/

/-- The handle as it is where the sessions are counted from the `n`-th on. -/
def Handle.since (n : Nat) (h : Handle) : Option Handle := if n ≤ h.flag then some ⟨h.flag - n⟩ else none

/-- The turn without the handles of the first `n` sessions. -/
def Turn.since (n : Nat) (t : Turn κ) : Turn κ :=
  { t with before := t.before.filterMap (Handle.since n), amid := fun i => (t.amid i).filterMap (Handle.since n) }

namespace Desk

/-- The second desk is the first one with the flags of the first `n` sessions left out. -/
structure Renews (n : Nat) (d d' : Desk κ) : Prop where
  controller : d.controller = d'.controller
  own : d.own = n + d'.own
  flags : d.flags.drop n = d'.flags
  count : n ≤ d.flags.length

section Renews

variable {n : Nat} {d d' : Desk κ}

/-- Whether the latest session was told to stop stands in its own flag. -/
theorem Renews.told (h : Renews n d d') : d.told = d'.told := by
  rw [Desk.told, Desk.told, ← h.flags, h.own, List.getElem?_drop]

theorem Renews.with (h : Renews n d d') (f : Controller κ → Controller κ) :
    Renews n { d with controller := f d.controller } { d' with controller := f d'.controller } :=
  ⟨congrArg f h.controller, h.own, h.flags, h.count⟩

/-- A flag of an earlier session is one that is left out. -/
theorem Renews.mark_of_lt (h : Renews n d d') {handle : Handle} (hlt : handle.flag < n) :
    Renews n (d.mark handle) d' := by
  refine ⟨h.controller, h.own, ?_, ?_⟩
  · rw [mark, List.drop_set_of_lt hlt, h.flags]
  · rw [mark, List.length_set]
    exact h.count

theorem Renews.mark (h : Renews n d d') {handle : Handle} (hle : n ≤ handle.flag) :
    Renews n (d.mark handle) (d'.mark ⟨handle.flag - n⟩) := by
  refine ⟨h.controller, h.own, ?_, ?_⟩
  · rw [Desk.mark, Desk.mark, List.drop_set, if_neg (Nat.not_lt.2 hle), h.flags]
  · rw [Desk.mark, List.length_set]
    exact h.count

/-- **A handle of an earlier session stops nothing**, and any other one what it stops anyway. -/
theorem Renews.pull (h : Renews n d d') (handle : Handle) :
    Renews n (d.pull handle) ((handle.since n).toList.foldl Desk.pull d') := by
  unfold Handle.since
  split
  · rename_i hle
    have hmark := h.mark hle
    simp only [Option.toList_some, List.foldl_cons, List.foldl_nil, Desk.pull, hmark.told, h.told]
    split
    · exact ⟨congrArg Controller.interrupt h.controller, hmark.own, hmark.flags, hmark.count⟩
    · exact hmark
  · -- The flag that is set is among those left out, so the own flag does not go up.
    rename_i hlt
    have hmark := h.mark_of_lt (Nat.not_le.1 hlt)
    simp only [Option.toList_none, List.foldl_nil, Desk.pull, hmark.told, h.told, Bool.and_not_self,
      Bool.false_eq_true, if_false]
    exact hmark

theorem Renews.pulls (h : Renews n d d') (hs : List Handle) :
    Renews n (hs.foldl Desk.pull d) ((hs.filterMap (Handle.since n)).foldl Desk.pull d') := by
  induction hs generalizing d d' with
  | nil => exact h
  | cons handle hs ih =>
    have hpull := ih (h.pull handle)
    cases hsince : handle.since n <;> simpa [hsince] using hpull

/-- A session goes as on the other desk. -/
theorem Renews.settle (h : Renews n d d') (amid : Nat → List Handle) (fuel : Nat) :
    Renews n (Desk.settle amid fuel d) (Desk.settle (fun i => (amid i).filterMap (Handle.since n)) fuel d') := by
  induction fuel generalizing d d' with
  | zero => exact h
  | succ fuel ih =>
    rw [Desk.settle, Desk.settle, h.controller]
    split
    · exact ih ((h.pulls (amid fuel)).with Controller.tick)
    · exact h

theorem Renews.handle? (h : Renews n d d') : d.handle? = d'.handle?.map fun handle => ⟨n + handle.flag⟩ := by
  unfold Desk.handle?
  rw [h.controller, h.own]
  split <;> rfl

/-- What the host is told of the command is what it is told of it there. -/
theorem Renews.reply? (h : Renews n d d') : d.reply? = d'.reply? := by rw [Desk.reply?, Desk.reply?, h.controller]

theorem Renews.accept (h : Renews n d d') (c : Controller κ) (deed : Deed κ) :
    Renews n (d.accept c deed) (d'.accept c deed) := by
  have hset : Renews n { d with controller := c } { d' with controller := c } := ⟨rfl, h.own, h.flags, h.count⟩
  cases deed with
  | debug source console entropy =>
    have hlength : d.flags.length = n + d'.flags.length := by
      rw [← h.flags, List.length_drop, Nat.add_sub_cancel' h.count]
    refine ⟨rfl, hlength, ?_, ?_⟩
    · rw [Desk.accept, Desk.accept, List.drop_append_of_le_length h.count, h.flags]
    · rw [Desk.accept, List.length_append]
      exact Nat.le_add_right_of_le h.count
  | stop =>
    simp only [Desk.accept, h.handle?]
    cases d'.handle? with
    | none => exact hset
    | some handle =>
      have hmark : Renews n (d.mark ⟨n + handle.flag⟩) _ := h.mark (Nat.le_add_right n handle.flag)
      rw [Nat.add_sub_cancel_left] at hmark
      exact ⟨rfl, hmark.own, hmark.flags, hmark.count⟩
  | step | input | breakpoints => exact hset

theorem Renews.respond (h : Renews n d d') (t : Turn κ) :
    (d.respond t).1 = (d'.respond (t.since n)).1 ∧ Renews n (d.respond t).2 (d'.respond (t.since n)).2 := by
  obtain ⟨deed, fuel, before, amid, departed⟩ := t
  unfold Desk.respond Turn.since
  rw [h.controller, h.told]
  cases d'.controller.take deed with
  | error e => exact ⟨rfl, h⟩
  | ok c =>
    have hsettle := (h.accept c deed).settle amid fuel
    dsimp only
    split
    · exact ⟨rfl, rfl, h.own, h.flags, h.count⟩
    · exact ⟨hsettle.reply?, hsettle⟩

/-- **A turn is the turn without the handles of earlier sessions.** -/
theorem Renews.turn (h : Renews n d d') (t : Turn κ) :
    (d.turn t).1 = (d'.turn (t.since n)).1 ∧ Renews n (d.turn t).2 (d'.turn (t.since n)).2 :=
  (h.pulls t.before).respond t

/-- A host does not see what is left out. -/
theorem Renews.report (h : Renews n d d') (answer : Option (Except DebugError State)) :
    d.report answer = d'.report answer := by
  have hhanded : d.handle?.isSome = d'.handle?.isSome := by rw [h.handle?, Option.isSome_map]
  rw [Desk.report, Desk.report, h.controller, hhanded]

theorem Renews.conduct (h : Renews n d d') (turns : List (Turn κ)) :
    d.conduct turns = d'.conduct (turns.map (Turn.since n)) := by
  induction turns generalizing d d' with
  | nil => rfl
  | cons t turns ih =>
    have hread : Renews n d.read d'.read := h.with fun c => c.takeView.2
    obtain ⟨hanswer, hturn⟩ := hread.turn t
    simp only [List.map_cons, Desk.conduct, hanswer, hturn.report, ih hturn]

end Renews

/-! ## The next start -/

section Closed

variable {d : Desk κ}

/-- Without a session there is none that a handle could stop. -/
theorem pull_of_closed (hl : d.controller.live = none) (h : Handle) : d.pull h = d.mark h := by
  have hinterrupt : d.controller.interrupt = d.controller := by rw [Controller.interrupt, hl]
  unfold pull
  dsimp only
  split
  · rw [hinterrupt]
    rfl
  · rfl

theorem pulls_of_closed (hl : d.controller.live = none) (hs : List Handle) :
    (hs.foldl pull d).controller = d.controller ∧ (hs.foldl pull d).flags.length = d.flags.length := by
  induction hs generalizing d with
  | nil => exact ⟨rfl, rfl⟩
  | cons h hs ih =>
    obtain ⟨hcontroller, hlength⟩ := ih (d := d.mark h) hl
    rw [List.foldl_cons, pull_of_closed hl]
    exact ⟨hcontroller, hlength.trans (List.length_set ..)⟩

/-- A session that is started is given a flag of its own. -/
theorem respond_debug {t : Turn κ} {source : String} {console : κ} {entropy : Random} {c : Controller κ}
    (hdeed : t.deed = .debug source console entropy) (hstart : d.controller.start source console entropy = .ok c) :
    d.respond t = ((settle t.amid t.fuel ⟨c, d.flags ++ [false], d.flags.length⟩).reply?,
      settle t.amid t.fuel ⟨c, d.flags ++ [false], d.flags.length⟩) := by
  unfold respond
  simp only [hdeed, Controller.take, hstart, Deed.isSent, Bool.false_and, Bool.false_eq_true, if_false, accept]

/-- **Where a session is started, the desk is as one on which it is the first.** -/
theorem renews_start {d' : Desk κ} {t : Turn κ} {source : String} {console : κ} {entropy : Random}
    (hdeed : t.deed = .debug source console entropy) (hl : d.controller.live = none) (hl' : d'.controller.live = none)
    (hnew : d'.flags = []) {c : Controller κ} (hstart : d.controller.start source console entropy = .ok c)
    (hstart' : d'.controller.start source console entropy = .ok c) :
    (d.turn t).1 = (d'.turn (t.since d.flags.length)).1 ∧
      Renews d.flags.length (d.turn t).2 (d'.turn (t.since d.flags.length)).2 := by
  obtain ⟨hc, hlength⟩ := pulls_of_closed hl t.before
  obtain ⟨hc', hlength'⟩ := pulls_of_closed hl' (t.since d.flags.length).before
  have hnone := List.length_eq_zero_iff.1 (hlength'.trans (by rw [hnew]; rfl))
  -- The flag of the new session is the first one that is not left out.
  have hrenews : Renews d.flags.length
      ⟨c, (t.before.foldl pull d).flags ++ [false], (t.before.foldl pull d).flags.length⟩ ⟨c, [false], 0⟩ :=
    ⟨rfl, hlength, by rw [← hlength, List.drop_left],
      by rw [List.length_append, hlength]; exact Nat.le_add_right _ _⟩
  have hsettle := hrenews.settle t.amid t.fuel
  rw [turn, respond_debug hdeed (by rw [hc]; exact hstart), turn,
    respond_debug (t := t.since d.flags.length) hdeed (by rw [hc']; exact hstart'), hnone]
  exact ⟨hsettle.reply?, hsettle⟩

/-- From a start on a host sees what it sees where that is the first one. -/
theorem conduct_start (d d' : Desk κ) (t : Turn κ) (turns : List (Turn κ)) {source : String} {console : κ}
    {entropy : Random} (hdeed : t.deed = .debug source console entropy) (hl : d.controller.live = none)
    (hl' : d'.controller.live = none) (hnew : d'.flags = []) {c : Controller κ}
    (hstart : d.read.controller.start source console entropy = .ok c)
    (hstart' : d'.read.controller.start source console entropy = .ok c) :
    d.conduct (t :: turns) = d'.conduct ((t :: turns).map (Turn.since d.flags.length)) := by
  obtain ⟨hanswer, hturn⟩ : (d.read.turn t).1 = (d'.read.turn (t.since d.flags.length)).1 ∧
      Renews d.flags.length (d.read.turn t).2 (d'.read.turn (t.since d.flags.length)).2 :=
    renews_start hdeed hl hl' hnew hstart hstart'
  simp only [List.map_cons, conduct, hanswer, hturn.report, hturn.conduct turns]

end Closed

/-- **A controller whose session is over is as good as new.** Let a host give a new controller any commands, move the
breakpoints and pull handles, until the controller is idle, completed or stopped. Whatever the host does from the next
start on, turn by turn it sees what a new controller with the same registry, configuration, sink and breakpoints shows,
if the system draws the same random numbers for it: what became of the command, the state, the snapshot, the prompt, the
failure, whether there is a session, what the view was told and what is on the console, also while a command has not
come back. Handles of the sessions before may be pulled at any moment of it, and stop nothing; those of the sessions
that are started from then on stop the same as there. -/
theorem as_good_as_new (registry : Registry) (config : Config) (sink : Sink κ) (breakpoints : List Nat)
    (history : List (Turn κ)) (d : Desk κ) (hd : (new registry config sink breakpoints).after history = some d)
    (hs : d.controller.state = .idle ∨ d.controller.state = .completed ∨ d.controller.state = .stopped) :
    (∀ (source : String) (console : κ) (entropy : Random) (t : Turn κ) (turns : List (Turn κ)),
      t.deed = .debug source console entropy →
      d.conduct (t :: turns) = (new registry config sink d.controller.breakpoints).conduct
        ((t :: turns).map (Turn.since d.flags.length))) ∧
    d.handle? = none ∧ d.controller.prompt = none ∧ ∀ h, (d.pull h).controller = d.controller := by
  have hclosed : d.controller.isOpen = false := by
    rcases hs with hs | hs | hs <;> simp [Controller.isOpen, hs]
  have hmoment := Controller.lasting_moment.after (.new registry config sink breakpoints) hd
  have hlive := hmoment.orderly.over hclosed
  have hgear : d.controller.gear = (registry, config, sink) := (Controller.lasting_gear _).after rfl hd
  refine ⟨?_, by rw [handle?, hlive]; rfl, d.controller.unasked hclosed, fun h => by rw [pull_of_closed hlive]; rfl⟩
  intro source console entropy t turns hdeed
  obtain ⟨c, hstart, hnew⟩ := Controller.start_eq_new hclosed source console entropy
  obtain ⟨hregistry, hconfig, hsink⟩ : d.controller.registry = registry ∧ d.controller.config = config ∧
      d.controller.sink = sink := by simpa [Controller.gear] using hgear
  rw [hregistry, hconfig, hsink] at hnew
  exact conduct_start d (new registry config sink d.controller.breakpoints) t turns hdeed hlive rfl rfl hstart hnew

/-- A controller that is about to debug `printThenRead`. -/
def printThenReadOpened : Controller Script :=
  let c : Controller Script := .new .empty .default (scriptSink none) [1]
  let m := (Config.default.machine .empty (.ofSeed 0)).begin
    [.print (.literal (.text "a") ⟨6, 9, 1⟩) false ⟨0, 11, 1⟩, .input "scan" none ⟨11, 18, 1⟩]
  { c with console := some (.ofInputs []), state := .preparing, live := some ⟨m, .initial⟩, unasked := fun _ => rfl }

/-- A session is stopped by its handle while it is paused, and has left when it is sent on. In the next session the same
handle is pulled over and over, and the program is debugged as by a new controller: it pauses, is sent on and waits for
its line. -/
theorem as_good_as_new_printThenRead :
    ∃ d : Desk Script,
      (new .empty .default (scriptSink none) [1]).after
          [⟨.debug printThenRead (.ofInputs []) (.ofSeed 0), 9, [], fun _ => [], false⟩,
            ⟨.step .onward, 9, [⟨0⟩], fun _ => [], true⟩] = some d ∧
      d.controller.state = .stopped ∧ (d.pull ⟨0⟩).controller = d.controller ∧
      (d.conduct [⟨.debug printThenRead (.ofInputs []) (.ofSeed 0), 9, [⟨0⟩], fun _ => [⟨0⟩], false⟩,
          ⟨.step .onward, 9, [⟨0⟩], fun _ => [⟨0⟩], true⟩]).map (·.state) = [.paused, .running] := by
  let fresh : Desk Script := new .empty .default (scriptSink none) [1]
  have hstart : fresh.controller.start printThenRead (.ofInputs []) (.ofSeed 0) = .ok printThenReadOpened := by
    rw [Controller.start, compile_printThenRead]
    rfl
  have hturn (amid : Nat → List Handle) : fresh.turn
      ⟨.debug printThenRead (.ofInputs []) (.ofSeed 0), 9, [], amid, false⟩ =
        ((settle amid 9 ⟨printThenReadOpened, [false], 0⟩).reply?, settle amid 9 ⟨printThenReadOpened, [false], 0⟩) :=
    respond_debug rfl hstart
  let start : Turn Script := ⟨.debug printThenRead (.ofInputs []) (.ofSeed 0), 9, [⟨0⟩], fun _ => [⟨0⟩], false⟩
  let onward : Turn Script := ⟨.step .onward, 9, [⟨0⟩], fun _ => [⟨0⟩], true⟩
  let stopped : Turn Script := ⟨.step .onward, 9, [⟨0⟩], fun _ => [], true⟩
  have hhistory : (fresh.after [start.alone, stopped]).map
      (fun d => (d.controller.state, d.flags.length, d.controller.breakpoints)) = some (.stopped, 1, [1]) := by
    rw [after, Turn.alone, hturn]
    decide +kernel
  have hnew : (fresh.conduct [start.since 1, onward.since 1]).map (·.state) = [.paused, .running] := by
    have hread : fresh.read = fresh := rfl
    have hsince : start.since 1 = ⟨.debug printThenRead (.ofInputs []) (.ofSeed 0), 9, [], fun _ => [], false⟩ := rfl
    rw [conduct, hread, hsince, hturn]
    decide +kernel
  obtain ⟨d, hd, hseen⟩ := Option.map_eq_some_iff.1 hhistory
  obtain ⟨hstate, hrest⟩ := Prod.mk.inj hseen
  obtain ⟨hlength, hbreakpoints⟩ := Prod.mk.inj hrest
  obtain ⟨hgood, -, -, hpull⟩ := as_good_as_new _ _ _ _ _ d hd (.inr (.inr hstate))
  have hsame := hgood printThenRead (.ofInputs []) (.ofSeed 0) start [onward] rfl
  rw [hbreakpoints, hlength] at hsame
  exact ⟨d, hd, hstate, hpull ⟨0⟩, (congrArg (List.map (·.state)) hsame).trans hnew⟩

end Desk

end StepScript.Debugger
