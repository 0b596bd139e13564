import StepScript.Debugger.Controller
import StepScript.Proofs.Grammar.Mistakes
import StepScript.Proofs.Machine.Lively
import StepScript.Proofs.Machine.Scripted
import StepScript.Proofs.Machine.Slot

/-!
# Debugging does not change the program

A session that is paused, stepped and answered in any order takes the same steps as the plain run that finds the same
lines on its console: the stepper only decides where to rest, and the breakpoints reach nothing but the stepper.

* `Driven c lines c'` says that commands of the host lead from `c` to `c'`, and which lines they gave the program.
* `Follows` is the invariant: the plain run comes to the machine of the session, or the session is over and tells how
  the plain run ends. One step keeps it (`Follows.tick`), so does the rest that follows a command (`Follows.settle`),
  so does every command (`Follows.commanded`).
-/

namespace StepScript.Debugger

open Machine

/-! ## Watched steps -/

section Advance

variable {m : Machine}

/-- A step of a session is a step of the machine, and its console hears of it. It may come to rest after that. -/
theorem advance_step (stepper : Stepper) (k : Script) (hw : m.waiting? = none) (hf : m.finished? = none) :
    ∃ stepper', m.advance (observer (scriptSink none)) (stepper, k) =
        .going (stepper', ⟨k.inputs, k.transcript.hear m.step.2⟩) m.step.1 ∨
      m.advance (observer (scriptSink none)) (stepper, k) =
        .resting (stepper', ⟨k.inputs, k.transcript.hear m.step.2⟩) m.step.1 := by
  rw [advance_eq _ _ hw hf]
  obtain ⟨m', event⟩ := m.step
  cases event with
  | none => exact ⟨stepper, Or.inl rfl⟩
  | some e =>
    cases e with
    | visit line =>
      by_cases hp : stepper.pausesAt line m'.depth = true
      · exact ⟨_, Or.inr (by simp only [observer, Stepper.hook, hp]; rfl)⟩
      · exact ⟨_, Or.inl (by simp only [observer, Stepper.hook, hp]; rfl)⟩
    | lap => exact ⟨_, Or.inl rfl⟩
    | write | writeLine | clear => exact ⟨stepper, Or.inl rfl⟩

/-- However a session advances, the plain run comes along. -/
theorem advance_along {m₀ : Machine} {t₀ : Transcript} {lines : List String} {k : Script} (hm : m.Lively)
    (ha : Along m₀ t₀ lines k.transcript m) (stepper : Stepper) :
    ∃ stepper' k' m', m'.Lively ∧ Along m₀ t₀ lines k'.transcript m' ∧
      (m.advance (observer (scriptSink none)) (stepper, k) = .going (stepper', k') m' ∨
        m.advance (observer (scriptSink none)) (stepper, k) = .resting (stepper', k') m') := by
  cases hf : m.finished? with
  | some result => exact ⟨stepper, k, m, hm, ha, Or.inr (advance_finished _ _ hf)⟩
  | none =>
    cases hw : m.waiting? with
    | none =>
      obtain ⟨stepper', hs⟩ := advance_step stepper k hw hf
      exact ⟨stepper', _, _, hm.step, ha.step hw hf, hs⟩
    | some prompt =>
      refine ⟨stepper, k, m, hm, ha, Or.inr ?_⟩
      unfold waiting? at hw
      split at hw
      · rename_i hp
        unfold advance
        rw [hp]
        rfl
      · cases hw

end Advance

/-! ## Commands -/

/-- One command of the host, with the rest that follows and the lines that the program was given: a step, a line, a
change of the breakpoints, a look at what the view was told. A command that is refused gives the program nothing. -/
inductive Commanded : Controller Script → List String → Controller Script → Prop
  | step {c c' : Controller Script} {fuel : Nat} (mode : StepMode) {answer : Except InvalidState State} :
      c.step fuel mode = some (answer, c') → Commanded c [] c'
  | input {c c' : Controller Script} {fuel : Nat} (line : String) {state : State} :
      c.input fuel line = some (.ok state, c') → Commanded c [line] c'
  | unasked {c c' : Controller Script} {fuel : Nat} (line : String) {e : InvalidState} :
      c.input fuel line = some (.error e, c') → Commanded c [] c'
  | breakpoints (c : Controller Script) (lines : List Nat) : Commanded c [] { c with breakpoints := lines }
  | view (c : Controller Script) : Commanded c [] c.takeView.2

/-- Commands of the host one after the other, with all the lines that the program was given. -/
inductive Driven : Controller Script → List String → Controller Script → Prop
  | refl (c : Controller Script) : Driven c [] c
  | command {c c' c'' : Controller Script} {lines more : List String} :
      Driven c lines c' → Commanded c' more c'' → Driven c (lines ++ more) c''

namespace Controller

/-- A controller tells how a run ended: it completed, or it stopped with its failure. -/
def Reports (c : Controller Script) : Except Diagnostic Value → Prop
  | .ok _ => c.state = .completed ∧ c.lastError = none
  | .error d => c.state = .stopped ∧ c.lastError = some d

/-- A session that has not ended: its machine, its stepper and its console. -/
structure Underway (c : Controller Script) (m : Machine) (stepper : Stepper) (k : Script) : Prop where
  sink : c.sink = scriptSink none
  live : c.live = some ⟨m, stepper⟩
  console : c.console = some k
  opened : c.isOpen = true
  unfailed : c.lastError = none
  /-- A prompt is shown only while the machine waits. -/
  prompt : c.prompt = none ∨ ∃ prompt, m.focus = .await prompt
  lively : m.Lively

/-- A session that has ended with a result. -/
structure Over (c : Controller Script) (result : Except Diagnostic Value) (k : Script) : Prop where
  live : c.live = none
  console : c.console = some k
  reports : c.Reports result

/-- The plain run from `m₀` with `lines` read comes to the machine of the session, or ended where the session did. -/
def Follows (m₀ : Machine) (t₀ : Transcript) (lines : List String) (c : Controller Script) : Prop :=
  (∃ m stepper k, c.Underway m stepper k ∧ Along m₀ t₀ lines k.transcript m) ∨
    ∃ m result k, c.Over result k ∧ m.finished? = some result ∧ Along m₀ t₀ lines k.transcript m

/-! ## A session that is over -/

section Over

variable {c c' : Controller Script} {result : Except Diagnostic Value} {k : Script}

/-- A session that ends unhalted tells how. -/
theorem over_finish (hc : c.console = some k) (he : c.lastError = none)
    (hr : ∀ d, result = .error d → d.isHalt = false) :
    (c.finish (result.map fun _ => ())).Over result k := by
  cases result with
  | ok v => exact ⟨rfl, hc, rfl, he⟩
  | error d =>
    simp only [Except.map, finish, record_of_failure c (hr d rfl)]
    exact ⟨rfl, hc, rfl, rfl⟩

theorem Over.isGoing (h : c.Over result k) : c.isGoing = false := by
  simp [Controller.isGoing, h.live]

/-- Nothing is left to come to rest. -/
theorem Over.settle (h : c.Over result k) {fuel : Nat} (hs : c.settle fuel = some c') : c' = c := by
  cases fuel <;> simpa [Controller.settle, h.isGoing, eq_comm] using hs

theorem resume_of_dead (h : c.live = none) (mode : StepMode) : c.resume mode = .error ⟨.step mode, c.state⟩ := by
  unfold resume
  rw [h]
  split
  · contradiction
  · rfl

theorem provideInput_of_dead (h : c.live = none) (line : String) : c.provideInput line = .error ⟨.input, c.state⟩ := by
  unfold provideInput
  rw [h]
  split
  · contradiction
  · rfl

/-- A session that is over takes no command but those for the view. -/
theorem Over.commanded (h : c.Over result k) {lines : List String} (hc : Commanded c lines c') :
    c'.Over result k ∧ lines = [] := by
  cases hc with
  | step mode hs =>
    rw [step, resume_of_dead h.live] at hs
    cases hs
    exact ⟨h, rfl⟩
  | input line hs =>
    rw [input, provideInput_of_dead h.live] at hs
    cases hs
  | unasked line hs =>
    rw [input, provideInput_of_dead h.live] at hs
    cases hs
    exact ⟨h, rfl⟩
  | breakpoints lines => exact ⟨⟨h.live, h.console, h.reports⟩, rfl⟩
  | view => exact ⟨⟨h.live, h.console, h.reports⟩, rfl⟩

theorem Over.driven (h : c.Over result k) {lines : List String} (hd : Driven c lines c') :
    c'.Over result k ∧ lines = [] := by
  induction hd with
  | refl => exact ⟨h, rfl⟩
  | command _ hc ih =>
    obtain ⟨ho, rfl⟩ := ih
    obtain ⟨ho', rfl⟩ := ho.commanded hc
    exact ⟨ho', rfl⟩

end Over

/-! ## A session that goes on -/

section Follows

variable {m₀ m : Machine} {t₀ : Transcript} {lines : List String} {c c' : Controller Script} {k : Script}
  {stepper : Stepper}

/-- Where a session comes to rest, the plain run is with it. -/
theorem follows_rest (hs : c.sink = scriptSink none) (hc : c.console = some k) (he : c.lastError = none)
    (hp : c.prompt = none) (hm : m.Lively) (ha : Along m₀ t₀ lines k.transcript m) :
    (c.rest stepper m).Follows m₀ t₀ lines := by
  cases hf : m.finished? with
  | some result =>
    refine Or.inr ⟨m, result, k, ?_, hf, ha⟩
    have hr : c.rest stepper m = c.finish (result.map fun _ => ()) := by
      cases result <;> simp only [rest, hf] <;> rfl
    rw [hr]
    refine over_finish hc he fun d hd => hm.finished (hf.trans ?_)
    rw [hd]
  | none =>
    refine Or.inl ⟨m, stepper, k, ?_, ha⟩
    cases hw : m.waiting? with
    | some prompt =>
      simp only [rest, hf, hw]
      refine ⟨hs, rfl, hc, rfl, he, Or.inr ?_, hm⟩
      unfold waiting? at hw
      split at hw
      · exact ⟨_, by assumption⟩
      · cases hw
    | none =>
      simp only [rest, hf, hw]
      exact ⟨hs, rfl, hc, rfl, he, Or.inl hp, hm⟩

/-- A step of a session that is going is one of its machine. -/
theorem tick_eq {κ : Type} {c : Controller κ} {k : κ} (hg : c.isGoing = true) (hl : c.live = some ⟨m, stepper⟩)
    (hk : c.console = some k) :
    c.tick = match m.advance (observer c.sink) (stepper, k) with
      | .going (stepper, k) m => { c with live := some ⟨m, stepper⟩, console := some k }
      | .resting (stepper, k) m => rest { c with live := none, console := some k } stepper m := by
  obtain ⟨registry, config, sink, state, live, console, snapshot, prompt, lastError, breakpoints, view, unasked⟩ := c
  dsimp only at hl hk
  subst hl hk
  exact if_pos hg

theorem Underway.tick_eq (h : c.Underway m stepper k) (hg : c.isGoing = true) :
    c.tick = match m.advance (observer (scriptSink none)) (stepper, k) with
      | .going (stepper, k) m => { c with live := some ⟨m, stepper⟩, console := some k }
      | .resting (stepper, k) m => rest { c with live := none, console := some k } stepper m := by
  have hobserver : observer c.sink = observer (scriptSink none) := by rw [h.sink]
  rw [Controller.tick_eq hg h.live h.console, hobserver]
  cases m.advance (observer (scriptSink none)) (stepper, k) <;> rfl

/-- A session that is going has a machine and a console. -/
theorem exists_of_isGoing {κ : Type} {c : Controller κ} (hg : c.isGoing = true) :
    ∃ m stepper k, c.live = some ⟨m, stepper⟩ ∧ c.console = some k := by
  simp only [isGoing, Bool.and_eq_true] at hg
  obtain ⟨⟨m, stepper⟩, hl⟩ := Option.isSome_iff_exists.1 hg.1.1.1
  obtain ⟨k, hk⟩ := Option.isSome_iff_exists.1 hg.1.1.2
  exact ⟨m, stepper, k, hl, hk⟩

theorem prompt_of_isGoing {κ : Type} {c : Controller κ} (hg : c.isGoing = true) : c.prompt = none := by
  simp only [isGoing, Bool.and_eq_true, Option.isNone_iff_eq_none] at hg
  exact hg.1.2

/-- A session that is not going takes no step. -/
theorem tick_of_rest {κ : Type} {c : Controller κ} (h : c.isGoing = false) : c.tick = c := by
  unfold tick
  rw [if_neg (Bool.eq_false_iff.1 h)]

/-- **One step of a session keeps the plain run with it.** -/
theorem Follows.tick (h : c.Follows m₀ t₀ lines) (hg : c.isGoing = true) : c.tick.Follows m₀ t₀ lines := by
  rcases h with ⟨m, stepper, k, hu, ha⟩ | ⟨m, result, k, ho, -⟩
  · have hp := prompt_of_isGoing hg
    obtain ⟨stepper', k', m', hm', ha', hs | hs⟩ := advance_along hu.lively ha stepper
    · rw [hu.tick_eq hg, hs]
      exact Or.inl ⟨m', stepper', k', ⟨hu.sink, rfl, rfl, hu.opened, hu.unfailed, Or.inl hp, hm'⟩, ha'⟩
    · rw [hu.tick_eq hg, hs]
      exact follows_rest hu.sink rfl hu.unfailed hp hm' ha'
  · rw [ho.isGoing] at hg
    cases hg

/-- A session that comes to rest has the plain run with it. -/
theorem Follows.settle : ∀ {fuel : Nat} {c : Controller Script}, c.Follows m₀ t₀ lines → c.settle fuel = some c' →
    c'.Follows m₀ t₀ lines
  | 0, c, h, hs => by
    rw [Controller.settle] at hs
    split at hs <;> cases hs
    exact h
  | fuel + 1, c, h, hs => by
    rw [Controller.settle] at hs
    split at hs
    · rename_i hg
      exact (h.tick hg).settle hs
    · cases hs
      exact h

/-- A command that was taken is followed by a rest. -/
theorem complete_ok {κ : Type} {c₀ c c' : Controller κ} {fuel : Nat} {answer : Except InvalidState State}
    (hs : c₀.complete fuel (.ok c) = some (answer, c')) : answer = .ok c'.state ∧ c.settle fuel = some c' := by
  unfold complete at hs
  dsimp only at hs
  split at hs
  · rename_i hr
    cases hs
    exact ⟨rfl, hr⟩
  · cases hs

/-- A command that was refused changes nothing. -/
theorem complete_error {κ : Type} {c₀ c' : Controller κ} {fuel : Nat} {e : InvalidState}
    {answer : Except InvalidState State} (hs : c₀.complete fuel (.error e) = some (answer, c')) :
    answer = .error e ∧ c' = c₀ := by
  cases hs
  exact ⟨rfl, rfl⟩

/-- A step that is ordered moves nothing but the stepper. -/
theorem Underway.resume (h : c.Underway m stepper k) {mode : StepMode} (hr : c.resume mode = .ok c') :
    ∃ stepper', c'.Underway m stepper' k := by
  unfold Controller.resume at hr
  split at hr
  · rename_i live hs hl
    cases h.live.symm.trans hl
    cases hr
    exact ⟨_, h.sink, rfl, h.console, rfl, h.unfailed, h.prompt, h.lively⟩
  · cases hr

/-- A line that is taken goes to the machine, which waits for it. -/
theorem Underway.provideInput (h : c.Underway m stepper k) {line : String} (hr : c.provideInput line = .ok c') :
    (∃ prompt, m.focus = .await prompt) ∧ c'.Underway (m.answer (.line line)) stepper k := by
  unfold Controller.provideInput at hr
  split at hr
  · rename_i prompt live hp hl
    cases h.live.symm.trans hl
    cases hr
    refine ⟨h.prompt.resolve_left (by rw [hp]; exact Option.some_ne_none _), ?_⟩
    exact ⟨h.sink, rfl, h.console, h.opened, h.unfailed, Or.inl rfl, h.lively.answer line⟩
  · cases hr

/-- **Every command keeps the plain run with the session**, which reads the lines that were given. -/
theorem Follows.commanded (h : c.Follows m₀ t₀ lines) {more : List String} (hc : Commanded c more c') :
    c'.Follows m₀ t₀ (lines ++ more) := by
  rcases h with ⟨m, stepper, k, hu, ha⟩ | ⟨m, result, k, ho, hf, ha⟩
  · cases hc with
    | step mode hs =>
      rw [List.append_nil]
      rw [step] at hs
      cases hr : c.resume mode with
      | error e =>
        rw [hr] at hs
        rw [(complete_error hs).2]
        exact Or.inl ⟨m, stepper, k, hu, ha⟩
      | ok c₁ =>
        rw [hr] at hs
        obtain ⟨stepper', hu'⟩ := hu.resume hr
        exact Follows.settle (Or.inl ⟨m, stepper', k, hu', ha⟩) (complete_ok hs).2
    | input line hs =>
      rw [input] at hs
      cases hr : c.provideInput line with
      | error e =>
        rw [hr] at hs
        cases (complete_error hs).1
      | ok c₁ =>
        rw [hr] at hs
        obtain ⟨⟨prompt, hm⟩, hu'⟩ := hu.provideInput hr
        exact Follows.settle (Or.inl ⟨_, stepper, k, hu', ha.answer hm line⟩) (complete_ok hs).2
    | unasked line hs =>
      rw [List.append_nil]
      rw [input] at hs
      cases hr : c.provideInput line with
      | error e' =>
        rw [hr] at hs
        rw [(complete_error hs).2]
        exact Or.inl ⟨m, stepper, k, hu, ha⟩
      | ok c₁ =>
        rw [hr] at hs
        cases (complete_ok hs).1
    | breakpoints lines =>
      rw [List.append_nil]
      exact Or.inl ⟨m, stepper, k, ⟨hu.sink, hu.live, hu.console, hu.opened, hu.unfailed, hu.prompt, hu.lively⟩, ha⟩
    | view =>
      rw [List.append_nil]
      exact Or.inl ⟨m, stepper, k, ⟨hu.sink, hu.live, hu.console, hu.opened, hu.unfailed, hu.prompt, hu.lively⟩, ha⟩
  · obtain ⟨ho', rfl⟩ := ho.commanded hc
    rw [List.append_nil]
    exact Or.inr ⟨m, result, k, ho', hf, ha⟩

/-- Whatever the host does, the plain run stays with the session. -/
theorem Follows.driven (h : c.Follows m₀ t₀ []) {lines : List String} (hd : Driven c lines c') :
    c'.Follows m₀ t₀ lines := by
  induction hd with
  | refl => exact h
  | command _ hc ih => exact ih.commanded hc

end Follows

/-! ## From the first command to the end -/

section Start

variable {c c₁ c₂ : Controller Script} {k : Script} {entropy : Random} {source : String} {lines : List String}

theorem lively_begin (registry : Registry) (config : Config) (entropy : Random) (program : Program) :
    ((config.machine registry entropy).begin program).Lively := ⟨rfl, rfl⟩

/-- A session that was started has the plain run with it. -/
theorem follows_start {program : Program} (hs : c.sink = scriptSink none) (hp : compile source = .ok program)
    (h : c.start source k entropy = .ok c₁) :
    c₁.Follows ((c.config.machine c.registry entropy).begin program) k.transcript [] := by
  unfold start at h
  split at h
  · cases h
  · rename_i ho
    rw [hp] at h
    cases h
    refine Or.inl ⟨_, .initial, k, ?_, .refl _ _⟩
    exact ⟨hs, rfl, rfl, rfl, rfl, Or.inl (c.unasked (Bool.eq_false_iff.2 ho)),
      lively_begin c.registry c.config entropy program⟩

/-- A text that does not compile ends its session with the mistake. -/
theorem over_start {d : Diagnostic} (hp : compile source = .error d) (h : c.start source k entropy = .ok c₁) :
    c₁.Over (.error d) k := by
  unfold start at h
  split at h
  · cases h
  · rw [hp] at h
    cases h
    refine @over_finish _ (.error d) _ rfl rfl ?_
    rintro _ ⟨rfl⟩
    rcases compile_error hp with ⟨f, hf⟩ | ⟨f, hf⟩ <;> rw [Diagnostic.isHalt, hf] <;> rfl

end Start

theorem Reports.completed_iff {c : Controller Script} {result : Except Diagnostic Value} (h : c.Reports result) :
    c.state = .completed ↔ ∃ v, result = .ok v := by
  cases result with
  | ok v => exact ⟨fun _ => ⟨v, rfl⟩, fun _ => h.1⟩
  | error d =>
    refine ⟨fun hc => ?_, fun ⟨_, hv⟩ => by cases hv⟩
    rw [h.1] at hc
    cases hc

end Controller

open Controller in
/-- **Debugging does not change the program.** However a session is driven from its start to its end, with lines given
for the prompts it shows, the plain run of the same text that finds these lines on its console, and draws the same
random numbers, ends too, and reads those lines and no more. The session completed exactly if that run succeeded, and
stopped with its failure if it failed; the same was written to both consoles, and they were cleared as often. -/
theorem debugged_as_run {c c₁ c₂ : Controller Script} {k : Script} {entropy : Random} {source : String} {fuel : Nat}
    {state : State} {lines : List String} (hs : c.sink = scriptSink none)
    (hd : c.debug fuel source k entropy = some (.ok state, c₁))
    (hr : Driven c₁ lines c₂) (he : c₂.isOpen = false) (extra : List String) :
    ∃ (n : Nat) (result : Except Diagnostic Value) (s : Session) (t : Transcript) (k₂ : Script),
      (∀ fuel ≥ n, (Session.new c.registry c.config (.script ⟨lines ++ extra, k.transcript⟩) entropy).execute fuel
        source = some (result, s)) ∧
      (c₂.state = .completed ↔ ∃ v, result = .ok v) ∧
      (∀ d, result = .error d → c₂.state = .stopped ∧ c₂.lastError = some d) ∧
      s.console = .script ⟨extra, t⟩ ∧ c₂.console = some k₂ ∧
      t.output = k₂.transcript.output ∧ t.messages = k₂.transcript.messages ∧ t.clears = k₂.transcript.clears := by
  rw [debug] at hd
  cases hst : c.start source k entropy with
  | error e =>
    rw [hst] at hd
    cases (complete_error hd).1
  | ok c₀ =>
    rw [hst] at hd
    have hd := (complete_ok hd).2
    cases hp : compile source with
    | error d =>
      have ho := over_start hp hst
      cases ho.settle hd
      obtain ⟨ho₂, rfl⟩ := ho.driven hr
      refine ⟨0, .error d, Session.new c.registry c.config (.script ⟨[] ++ extra, k.transcript⟩) entropy, k.transcript,
        k, fun fuel _ => Session.execute_error hp, ho₂.reports.completed_iff, ?_, rfl, ho₂.console, rfl, rfl, rfl⟩
      · rintro _ ⟨rfl⟩
        exact ho₂.reports
    | ok program =>
      have hf := ((follows_start hs hp hst).settle hd).driven hr
      rcases hf with ⟨m, stepper, k₂, hu, -⟩ | ⟨m, result, k₂, ho, hm, ha⟩
      · rw [hu.opened] at he
        cases he
      · obtain ⟨n, t, ht, hn⟩ := ha.finished hm extra
        refine ⟨n, result, ⟨m, .script ⟨extra, t⟩⟩, t, k₂, fun fuel hfuel => ?_, ho.reports.completed_iff, ?_, rfl,
          ho.console, congrArg (·.1) ht, congrArg (·.2.1) ht, congrArg (·.2.2) ht⟩
        · have hrun := hn fuel hfuel
          rw [Session.execute_ok hp, Session.drive_eq]
          simp only [Session.new, hrun, Option.bind_some, hm, Option.map_some]
        · rintro d rfl
          exact ho.reports

/-- A program that prints and then reads a line. -/
def printThenRead : String := "print(\"a\");scan();"

/-- The tokens of `printThenRead`. -/
def printThenReadTokens : List Token :=
  [⟨.print, "print", none, ⟨0, 5, 1⟩⟩, ⟨.leftParen, "(", none, ⟨5, 6, 1⟩⟩,
    ⟨.string, "\"a\"", some (.text "a"), ⟨6, 9, 1⟩⟩, ⟨.rightParen, ")", none, ⟨9, 10, 1⟩⟩,
    ⟨.semicolon, ";", none, ⟨10, 11, 1⟩⟩, ⟨.input, "scan", none, ⟨11, 15, 1⟩⟩, ⟨.leftParen, "(", none, ⟨15, 16, 1⟩⟩,
    ⟨.rightParen, ")", none, ⟨16, 17, 1⟩⟩, ⟨.semicolon, ";", none, ⟨17, 18, 1⟩⟩, .eof ⟨18, 18, 1⟩]

theorem scan_printThenRead : scan printThenRead = .ok printThenReadTokens := by
  rw [scan]
  iterate 10 unfold scanFrom
  rfl

theorem compile_printThenRead : compile printThenRead =
    .ok [.print (.literal (.text "a") ⟨6, 9, 1⟩) false ⟨0, 11, 1⟩, .input "scan" none ⟨11, 18, 1⟩] := by
  rw [compile, scan_printThenRead]
  rfl

open Controller in
/-- A session that is paused at its first statement, sent on and answered ends as the plain run does. -/
theorem debugged_as_run_printThenRead :
    ∃ (c₁ c₂ : Controller Script) (n : Nat) (v : Value) (s : Session) (t : Transcript),
      Driven c₁ ["line"] c₂ ∧ c₂.state = .completed ∧
      (∀ fuel ≥ n, (Session.new .empty .default (.script (.ofInputs ["line", "more"]))).execute fuel printThenRead =
        some (.ok v, s)) ∧
      s.console = .script ⟨["more"], t⟩ ∧ t.output = "a" := by
  let c : Controller Script := .new .empty .default (scriptSink none) [1]
  have h : ((c.debug 9 printThenRead (.ofInputs [])).bind fun r₁ => (r₁.2.step 9 .onward).bind fun r₂ =>
      (r₂.2.input 9 "line").map fun r₃ =>
        (r₁.1.toOption, r₃.1.toOption, r₃.2.state, r₃.2.console.map (·.transcript.output))) =
      some (some .paused, some .completed, .completed, some "a") := by
    rw [debug, start, compile_printThenRead]
    decide +kernel
  simp only [Option.bind_eq_some_iff, Option.map_eq_some_iff, Prod.mk.injEq] at h
  obtain ⟨⟨a₁, c₁⟩, h₁, ⟨a₂, c₂⟩, h₂, ⟨a₃, c₃⟩, h₃, ha₁, ha₃, hc, k, hk, ho⟩ := h
  cases a₁ with
  | error e => cases ha₁
  | ok state₁ =>
    cases a₃ with
    | error e => cases ha₃
    | ok state₃ =>
      have hd : Driven c₁ ["line"] c₃ := ((Driven.refl c₁).command (.step .onward h₂)).command (.input "line" h₃)
      obtain ⟨n, result, s, t, k₂, hn, hr, -, hs, hk₂, ht, -⟩ :=
        debugged_as_run rfl h₁ hd (by rw [Controller.isOpen, hc]; rfl) ["more"]
      obtain ⟨v, rfl⟩ := hr.1 hc
      cases hk.symm.trans hk₂
      exact ⟨c₁, c₃, n, v, s, t, hd, hc, hn, hs, ht.trans ho⟩

end StepScript.Debugger
