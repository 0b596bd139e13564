import StepScript.Proofs.Machine.Separation
import StepScript.Proofs.Machine.Stacking

/-!
# Scoping is lexical

A function runs in a frame inside the frame that it was made in. The frame that it is called from is kept for the way
back and looked at by nothing on the way.

* A `CallStage` is all that there is of a call under way, except for the frame of its caller, and `x.calledFrom g` is
  the machine whose caller stands in the frame `g`.
* From a stage of a call all callers make the same watched step, to the same stage (`CallStage.Sound.advance`). So a run
  of the call is the same for all of them, and so is every moment of it (`CallStage.Sound.run`,
  `CallStage.Sound.during`).
-/

namespace StepScript

/-- A hook that looks at the data of a run and at where it stands, and not at the work that is left to do. -/
def Hook.Discreet {η : Type} (h : Hook η) : Prop :=
  ∀ state m focus pending line,
    h.before state { m with focus := focus, pending := pending } line = h.before state m line

/-- Whatever a probe writes down, it is such a hook. -/
theorem discreet_probe (p : Probe) : p.hook.Discreet := fun _ _ _ _ _ => rfl

/-- The machine with another current frame. -/
def Machine.standing (m : Machine) (f : FrameId) : Machine := { m with here := f }

/-- The session with another current frame. -/
def Session.standing (s : Session) (f : FrameId) : Session := { s with machine := s.machine.standing f }

/-- A call under way, without the frame of its caller. -/
inductive CallStage where
  /-- No function was entered, or it was left again; the current frame of the machine does not count. -/
  | outside (m : Machine)
  /-- Work inside a function, and the rest of its body. -/
  | inside (core : Machine) (rest : List Stmt)

namespace CallStage

open Machine

/-- The machine that carries out a call for a caller in the frame `g`. -/
def calledFrom (g : FrameId) : CallStage → Machine
  | outside m => m.standing g
  | inside core rest => core.atop [.call g rest]

/-- The stages of a call: it is set out, a builtin waits for a line, a function is at work, the call is back. -/
inductive Sound : CallStage → Prop
  | out {m : Machine} {callee : Value} {args : List Value} {span : Span} : m.focus = .apply callee args span →
      m.pending = [] → Sound (.outside m)
  | reads {m : Machine} {prompt : String} {keep : Bool} {span : Span} : m.focus = .await prompt →
      m.pending = [.reply keep span] → Sound (.outside m)
  | inside {core : Machine} {rest : List Stmt} {home : Place} : Working [] home .statement core →
      Sound (.inside core rest)
  | back {m : Machine} : m.Back [] → Sound (.outside m)

/-! ## One step -/

/-- The same step for all callers: it comes to the stage `y` and shows `e`. Statements are announced inside functions
only. -/
structure Comes (step : FrameId → Machine × Option Event) (y : CallStage) (e : Option Event) : Prop where
  sound : y.Sound
  same : ∀ g, step g = (y.calledFrom g, e)
  inside : ∀ line, e = some (.visit line) → ∃ core rest, y = .inside core rest

section Step

variable {m core : Machine} {rest : List Stmt}

theorem comes_silent {step : FrameId → Machine × Option Event} {y : CallStage} (hy : y.Sound)
    (hs : ∀ g, step g = (y.calledFrom g, none)) : Comes step y none := ⟨hy, hs, fun _ h => by cases h⟩

theorem comes_outcome {step : FrameId → Machine × Option Event} (hb : m.Back [])
    (hs : ∀ g, step g = (m.standing g, none)) : Comes step (.outside m) none := comes_silent (.back hb) hs

/-- A builtin has its answer, or waits for a line. -/
theorem comes_takeAnswer (hp : m.pending = []) (span : Span) (a : Answer) :
    ∃ y e, Comes (fun g => (m.standing g).takeAnswer span a) y e := by
  cases a with
  | ask prompt =>
    refine ⟨.outside (m.request true span prompt), none, comes_silent ?_ ?_⟩
    · unfold request
      split
      · exact .back ⟨hp, rfl⟩
      · exact .reads rfl (congrArg (Pending.reply true span :: ·) hp)
    · intro g
      have hstopped : (m.standing g).stopped = m.stopped := rfl
      simp only [takeAnswer, request, hstopped]
      split <;> rfl
  | write | writeLine | clear =>
    exact ⟨.outside (m.turn (.give .null)), some _, .back ⟨hp, rfl⟩, fun _ => rfl, fun _ h => by cases h⟩
  | value v => exact ⟨_, _, comes_outcome (m := m.turn (.give v)) ⟨hp, rfl⟩ fun _ => rfl⟩
  | fault f => exact ⟨_, _, comes_outcome (m := m.raise span f) ⟨hp, rfl⟩ fun _ => rfl⟩

/-- A value is called: a builtin runs, a function is entered, or the call fails. -/
theorem comes_applyValue (hp : m.pending = []) (callee : Value) (args : List Value) (span : Span) :
    ∃ y e, Comes (fun g => (m.standing g).applyValue callee args span) y e := by
  have hraise (f : RuntimeFault) : ∃ y e, Comes (fun g => ((m.standing g).raise span f, none)) y e :=
    ⟨_, _, comes_outcome (m := m.raise span f) ⟨hp, rfl⟩ fun _ => rfl⟩
  have hbuiltin (b : Builtin) : ∃ y e, Comes (fun g => (m.standing g).runBuiltin b args span) y e :=
    comes_takeAnswer (m := { m with store := (b.run args m.store).2 }) hp span (b.run args m.store).1
  cases callee with
  | native f =>
    simp only [applyValue]
    split
    · split
      · exact hbuiltin _
      · exact hraise _
    · exact hbuiltin _
  | closure f =>
    have hsettings (g : FrameId) : (m.standing g).settings = m.settings := rfl
    have hdepth (g : FrameId) : (m.standing g).depth = m.depth := rfl
    simp only [applyValue, hsettings, hdepth]
    split
    · exact hraise _
    · split
      · exact hraise _
      · -- The caller's frame goes into the piece of work beneath the function, and nowhere else.
        let core : Machine := { m.enterFunction f args span with pending := [] }
        have hcore : Working [] core.place .statement core := ⟨[], rfl, rfl, rfl⟩
        refine ⟨.inside core f.body, none, comes_silent (.inside hcore) fun g => ?_⟩
        refine congrArg (·, none) ?_
        show (m.standing g).enterFunction f args span = core.atop [.call g f.body]
        simp only [core, enterFunction, enter, push, mapStore, standing, atop, hp, List.nil_append]
  | _ => exact hraise _

/-- The work inside a function is done: the next statement of its body comes, or the call is back. -/
theorem comes_back {home : Place} (hw : Working [] home .statement core) (hb : core.Back []) (rest : List Stmt) :
    ∃ y e, Comes (fun g => (core.atop [.call g rest]).step) y e := by
  obtain ⟨hp, hout⟩ := hb
  have hpending (g : FrameId) : (core.atop [.call g rest]).pending = .call g rest :: [] := by rw [atop, hp]; rfl
  cases hm : core.focus with
  | start | exec | eval | apply | await => rw [hm] at hout; cases hout
  | give v =>
    obtain ⟨inner, hi, hy, -⟩ := hw
    obtain rfl : inner = [] := by simpa [hp] using hi
    rw [hm] at hy
    cases hy
  | done =>
    have hstep (g : FrameId) := step_done (m := core.atop [.call g rest]) hm (hpending g)
    cases rest with
    | nil =>
      exact ⟨_, _, comes_outcome (m := { core with focus := .give .null, calls := core.calls.pop, pending := [] })
        ⟨rfl, rfl⟩ hstep⟩
    | cons s rest =>
      let next : Machine := { core with focus := .start s, pending := [] }
      have hnext : Working [] next.place .statement next := ⟨[], rfl, rfl, rfl⟩
      exact ⟨.inside next rest, none, comes_silent (.inside hnext) hstep⟩
  | leave v =>
    exact ⟨_, _, comes_outcome (m := { core with focus := .give v, calls := core.calls.pop, pending := [] })
      ⟨rfl, rfl⟩ fun g => step_leave (m := core.atop [.call g rest]) hm (hpending g)⟩
  | fail d =>
    refine ⟨_, _, comes_outcome (m := { core with calls := core.calls.pop, pending := [] }) ⟨rfl, hout⟩ fun g => ?_⟩
    exact step_fail (m := core.atop [.call g rest]) hm (hpending g)

end Step

/-! ## Watched steps -/

/-- The stage after a decision. -/
def heed (v : Verdict) : CallStage → CallStage
  | outside m => outside (m.heed v)
  | inside core rest => inside (core.heed v) rest

theorem calledFrom_heed (x : CallStage) (v : Verdict) (g : FrameId) :
    (x.calledFrom g).heed v = (x.heed v).calledFrom g := by
  cases x with
  | outside m =>
    show (m.standing g).heed v = (m.heed v).standing g
    unfold Machine.heed
    cases v.course <;> cases v.stop <;> rfl
  | inside core rest => exact heed_atop core [.call g rest] v

theorem heed_proceed (x : CallStage) : x.heed .proceed = x := by
  cases x <;> rfl

/-- How a call ended, if it did. -/
def finished? : CallStage → Option (Except Diagnostic Value)
  | outside m => m.finished?
  | inside _ _ => none

theorem finished?_calledFrom (x : CallStage) (g : FrameId) : (x.calledFrom g).finished? = x.finished? := by
  cases x with
  | outside m => rfl
  | inside core rest => exact finished?_eq_none (back_atop (m := core) [.call g rest] (List.cons_ne_nil _ _))

/-- From the stage `x` all callers make the same watched step: they go on at the same stage, or they come to rest. -/
inductive Paced {σ : Type} (o : Observer σ) (s : σ) (x : CallStage) : Prop
  | going (s₁ : σ) (y : CallStage) : y.Sound →
      (∀ g, (x.calledFrom g).advance o s = .going s₁ (y.calledFrom g)) → Paced o s x
  | resting (s₁ : σ) (y : CallStage) : (∀ g, (x.calledFrom g).advance o s = .resting s₁ (y.calledFrom g)) →
      Paced o s x

section Watched

variable {η : Type} {h : Hook η} {x y : CallStage} {m core : Machine} {rest : List Stmt}

/-- What a step shows looks the same for all callers. -/
theorem Comes.seen (hh : h.Discreet) {step : FrameId → Machine × Option Event} {e : Event}
    (hc : Comes step y (some e)) (s : η × Console) :
    ∃ s₁ v, (y.heed v).Sound ∧ ∀ g, h.observer.see s (y.calledFrom g) e = (s₁, v) := by
  cases e with
  | visit line =>
    obtain ⟨core, rest, rfl⟩ := hc.inside line rfl
    have hsound := hc.sound
    cases hsound with
    | inside hw =>
      have hlook (g : FrameId) : h.before s.1 (core.atop [.call g rest]) line = h.before s.1 core line :=
        hh s.1 core core.focus (core.pending ++ [Pending.call g rest]) line
      refine ⟨((h.before s.1 core line).1, s.2), (h.before s.1 core line).2, .inside (hw.heed _), fun g => ?_⟩
      simp only [calledFrom, Hook.observer, hlook]
  | _ => exact ⟨_, .proceed, by rw [heed_proceed]; exact hc.sound, fun _ => rfl⟩

theorem Comes.paced (hh : h.Discreet) {e : Option Event} (hc : Comes (fun g => (x.calledFrom g).step) y e)
    (hwait : ∀ g, (x.calledFrom g).waiting? = none) (hf : x.finished? = none) (s : η × Console) :
    Paced h.observer s x := by
  have hadvance (g : FrameId) := advance_eq h.observer s (hwait g) ((finished?_calledFrom x g).trans hf)
  simp only [hc.same] at hadvance
  cases e with
  | none => exact .going s y hc.sound hadvance
  | some e =>
    obtain ⟨s₁, v, hsound, hsee⟩ := hc.seen hh s
    simp only [hsee, calledFrom_heed] at hadvance
    cases hcourse : v.course with
    | hold => exact .resting s₁ (y.heed v) fun g => by rw [hadvance, hcourse]
    | proceed | refuse => exact .going s₁ (y.heed v) hsound fun g => by rw [hadvance, hcourse]

/-- A line that is waited for is asked for alike. -/
theorem paced_of_waiting {σ : Type} {o : Observer σ} {prompt : String}
    (hm : ∀ g, (x.calledFrom g).focus = .await prompt)
    (ha : ∀ reply, ∃ y : CallStage, y.Sound ∧ ∀ g, (x.calledFrom g).answer reply = y.calledFrom g) (s : σ) :
    Paced o s x := by
  cases hask : o.ask s prompt with
  | mk s₁ reply =>
    cases reply with
    | some reply =>
      obtain ⟨y, hsound, hanswer⟩ := ha reply
      exact .going s₁ y hsound fun g => by simp only [advance, hm, hask, hanswer]
    | none => exact .resting s₁ x fun g => by simp only [advance, hm, hask]

/-- **All callers make the same watched step.** -/
theorem Sound.advance (hh : h.Discreet) (hx : x.Sound) (s : η × Console) : Paced h.observer s x := by
  cases hx with
  | @out m callee args span hm hp =>
    obtain ⟨y, e, hc⟩ := comes_applyValue hp callee args span
    have hstep (g : FrameId) : (m.standing g).step = (m.standing g).applyValue callee args span := by
      simp only [step, standing, hm]
    refine Comes.paced (x := .outside m) hh ⟨hc.sound, fun g => (hstep g).trans (hc.same g), hc.inside⟩ ?_ ?_ s
    · intro g
      simp only [calledFrom, standing, waiting?, hm]
    · simp only [CallStage.finished?, Machine.finished?, hm, hp]
  | @reads m prompt keep span hm hp =>
    refine paced_of_waiting (x := .outside m) (fun _ => hm) (fun reply => ?_) s
    refine ⟨.outside (m.answer reply), .back (back_answer hm hp reply).2, fun g => ?_⟩
    obtain ⟨focus, pending, here, calls, store, stopped, cursor, latest, settings⟩ := m
    cases hm
    cases hp
    cases reply with
    | line text => cases keep <;> rfl
    | cancelled => cases stopped <;> rfl
  | @inside core rest home hw =>
    cases hwait : core.waiting? with
    | some prompt =>
      have hm := focus_of_waiting? hwait
      obtain ⟨keep, span, below, hpending⟩ := hw.reply (by decide) hm
      refine paced_of_waiting (x := .inside core rest) (fun _ => hm) (fun reply => ?_) s
      exact ⟨.inside (core.answer reply) rest, .inside (working_answer hw (by decide) reply), fun g =>
        answer_atop hm hpending reply [.call g rest]⟩
    | none =>
      obtain ⟨y, e, hc⟩ : ∃ y e, Comes (fun g => (core.atop [.call g rest]).step) y e := by
        by_cases hb : core.Back []
        · exact comes_back hw hb rest
        · exact ⟨.inside core.step.1 rest, core.step.2, .inside (working_step hw hb), fun g => step_atop hb _,
            fun _ _ => ⟨_, _, rfl⟩⟩
      exact Comes.paced (x := .inside core rest) hh hc (fun _ => hwait) rfl s
  | @back m hb =>
    obtain ⟨result, hf⟩ := finished?_of_back hb
    exact .resting s (.outside m) fun g => advance_finished (m := m.standing g) h.observer s hf

/-! ## Runs -/

/-- **All callers have the same run.** -/
theorem Sound.run (hh : h.Discreet) (hx : x.Sound) (fuel : Nat) (s : η × Console) :
    ∃ r : Option ((η × Console) × CallStage),
      ∀ g, (x.calledFrom g).run h.observer fuel s = r.map fun t => (t.1, t.2.calledFrom g) := by
  induction fuel generalizing x s with
  | zero => exact ⟨none, fun _ => rfl⟩
  | succ fuel ih =>
    cases hx.advance hh s with
    | going s₁ y hy ha =>
      obtain ⟨r, hr⟩ := ih hy s₁
      exact ⟨r, fun g => by rw [Machine.run, ha]; exact hr g⟩
    | resting s₁ y ha => exact ⟨some (s₁, y), fun g => by rw [Machine.run, ha]; rfl⟩

/-- To a moment of a call for one caller there is the same moment for every other. -/
theorem Sound.during (hh : h.Discreet) (hx : x.Sound) {f : FrameId} {s s₁ : η × Console}
    (hd : During h.observer s (x.calledFrom f) s₁ m) :
    ∃ y : CallStage, y.Sound ∧ m = y.calledFrom f ∧ ∀ g, During h.observer s (x.calledFrom g) s₁ (y.calledFrom g) := by
  induction hd with
  | start => exact ⟨x, hx, rfl, fun _ => .start⟩
  | going _ ha ih =>
    obtain ⟨y, hy, rfl, hsame⟩ := ih
    cases hy.advance hh _ with
    | going s₂ z hz hgoing =>
      rw [hgoing f] at ha
      cases ha
      exact ⟨z, hz, rfl, fun g => .going (hsame g) (hgoing g)⟩
    | resting s₂ z hresting =>
      rw [hresting f] at ha
      cases ha

end Watched

end CallStage

open Machine CallStage

section Calls

variable {η : Type} {h : Hook η} (hh : h.Discreet) (s : Session) (callee : Value) (args : List Value) (span : Span)
include hh

/-- Whoever calls, a call that is driven comes to the same, and leaves the caller where it stands. -/
theorem drive_standing (fuel : Nat) (state : η) :
    ∃ outcome : Option (Except Diagnostic Value × η × Session), ∀ g,
      (s.standing g).drive h state fuel ((s.standing g).machine.invoke callee args span) =
        outcome.map fun r => (r.1, r.2.1, r.2.2.standing g) := by
  have hout : (CallStage.outside (s.machine.invoke callee args span)).Sound := .out rfl rfl
  obtain ⟨r, hr⟩ := hout.run hh fuel (state, s.console)
  have hrun (g : FrameId) :
      ((s.standing g).machine.invoke callee args span).run h.observer fuel (state, (s.standing g).console) =
        r.map fun t => (t.1, t.2.calledFrom g) := hr g
  simp only [Session.drive_eq, hrun]
  cases r with
  | none => exact ⟨none, fun _ => rfl⟩
  | some r =>
    obtain ⟨⟨state', console⟩, y⟩ := r
    simp only [Option.map_some, Option.bind_some, finished?_calledFrom]
    cases hf : y.finished? with
    | none => exact ⟨none, fun _ => rfl⟩
    | some result =>
      cases y with
      | outside m => exact ⟨some (result, state', ⟨m, console⟩), fun _ => rfl⟩
      | inside core rest => cases hf

/-- What a hook has seen and a console has taken at some moment of a call for one caller, they have at some moment of
the call for any other. -/
theorem during_standing {f g : FrameId} {state : η} {seen : η × Console}
    (hd : ∃ m, During h.observer (state, s.console) ((s.standing f).machine.invoke callee args span) seen m) :
    ∃ m, During h.observer (state, s.console) ((s.standing g).machine.invoke callee args span) seen m := by
  have hout : (CallStage.outside (s.machine.invoke callee args span)).Sound := .out rfl rfl
  obtain ⟨m, hd⟩ := hd
  obtain ⟨y, -, -, hsame⟩ := hout.during (f := f) hh hd
  exact ⟨y.calledFrom g, hsame g⟩

/-- **Scoping is lexical.** Which frame is current when a value is called does not matter to the call: with any other
current frame it comes to the same, for the same effects on the console and the same calls of the hook, and the session
that is left is the same but for the current frame, which is in either case the one that the call began with. A call
that does not come to an end shows the same to the hook and the console on its way. -/
theorem call_ignores_current_frame (g : FrameId) (state : η) :
    (∀ fuel, (s.standing g).drive h state fuel ((s.standing g).machine.invoke callee args span) =
      (s.drive h state fuel (s.machine.invoke callee args span)).map
        fun r => (r.1, r.2.1, r.2.2.standing g)) ∧
    (∀ fuel result state' s', s.drive h state fuel (s.machine.invoke callee args span) = some (result, state', s') →
      s'.machine.here = s.machine.here) ∧
    ∀ seen,
      (∃ m, During h.observer (state, s.console) ((s.standing g).machine.invoke callee args span) seen m) ↔
        ∃ m, During h.observer (state, s.console) (s.machine.invoke callee args span) seen m := by
  refine ⟨?_, ?_, ?_⟩
  · intro fuel
    obtain ⟨outcome, ho⟩ := drive_standing hh s callee args span fuel state
    have hown : s.drive h state fuel (s.machine.invoke callee args span) =
        outcome.map fun r => (r.1, r.2.1, r.2.2.standing s.machine.here) := ho s.machine.here
    rw [hown, ho, Option.map_map]
    rfl
  · intro fuel result state' s' hd
    obtain ⟨outcome, ho⟩ := drive_standing hh s callee args span fuel state
    obtain ⟨r, -, hr⟩ := Option.map_eq_some_iff.1 ((ho s.machine.here).symm.trans hd)
    cases hr
    rfl
  · intro seen
    exact ⟨during_standing hh s callee args span (g := s.machine.here),
      during_standing hh s callee args span (f := s.machine.here)⟩

end Calls

/-- A session inside a frame of its own, with an `x` beside the global one. -/
def callerWithLocal : Session :=
  let scopes := Scopes.root.define 0 "x" (.text "global")
  let store : Store := ⟨(scopes.child 0).define 1 "x" (.text "local"), #[], 0, .ofSeed 0⟩
  ⟨{ Config.default.machine .empty (.ofSeed 0) with here := 1, store := store }, .script (.ofInputs [])⟩

/-- A global function that shows its `x`. -/
def shower : Value :=
  .closure ⟨0, "f", [], [.print (.name "x" ⟨0, 0, 1⟩) true ⟨0, 0, 1⟩], 0⟩

/-- A probe that writes everything down. -/
def recorder : Probe := ⟨true, none, none, ""⟩

/-- What a console that follows a script was given to write. -/
def Console.written? : Console → Option String
  | .script k => some k.transcript.output
  | .channel _ => none

/-- The function shows the global `x` to a caller who has one of its own, and so it does to a caller in the global
frame; each of them is in its frame afterwards. -/
theorem call_ignores_current_frame_shower :
    ∃ (v : Value) (log : ProbeLog) (s' : Session),
      callerWithLocal.drive recorder.hook .empty 20 (callerWithLocal.machine.invoke shower [] ⟨0, 0, 1⟩) =
        some (.ok v, log, s') ∧
      (callerWithLocal.standing 0).drive recorder.hook .empty 20
          ((callerWithLocal.standing 0).machine.invoke shower [] ⟨0, 0, 1⟩) =
        some (.ok v, log, s'.standing 0) ∧
      s'.machine.here = 1 ∧ s'.console.written? = some "global\n" := by
  have hrun : (callerWithLocal.drive recorder.hook .empty 20
      (callerWithLocal.machine.invoke shower [] ⟨0, 0, 1⟩)).map
      (fun r => (r.1.isOk, r.2.2.console.written?)) = some (true, some "global\n") := by decide +kernel
  obtain ⟨⟨result, log, s'⟩, hd, hseen⟩ := Option.map_eq_some_iff.1 hrun
  obtain ⟨hok, hwritten⟩ := Prod.mk.inj hseen
  have h := call_ignores_current_frame (discreet_probe recorder) callerWithLocal shower [] ⟨0, 0, 1⟩ 0 .empty
  have hother := h.1 20
  rw [hd] at hother
  have hhere := h.2.1 20 result log s' hd
  cases result with
  | error d => cases hok
  | ok v => exact ⟨v, log, s', hd, hother, hhere, hwritten⟩

end StepScript
