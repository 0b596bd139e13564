import StepScript.Proofs.Debugger.Transparency
import StepScript.Proofs.Machine.Trace

/-!
# The rule that a session pauses by

Where a session pauses is said here of the trace of the program alone. A statement arrives (`Arrives`) unless the trace
before it ends with a statement on its line and at its depth; an order (`Order`) stops at a statement that arrives on
one of its breakpoints, and where its mode asks for it.

The stepper carries no more than that: it is the order and the end of the trace (`Stepper.of`), and it holds the run
exactly where the order stops (`pausesAt_of`). What one step of a session does is said once, in `Underway.ticked`.
-/

namespace StepScript.Debugger

open Machine

/-! ## Arrivals and orders -/

/-- Line and depth of the statement that a trace ends with, if it ends with one. -/
def latest (trace : List Sight) : Option (Nat × Nat) :=
  match trace.getLast? with
  | some (.visit e) => some (e.line, e.depth)
  | _ => none

/-- Whether it is a statement on a line at a depth. -/
def IsAt (line depth : Nat) : Sight → Bool
  | .visit e => e.line == line && e.depth == depth
  | .lap _ => false

/-- A statement arrives: it is the first one, or a loop started its body since the statement before it, or its line or
its depth is another. -/
def Arrives (before : List Sight) (e : Entry) : Prop :=
  (∀ x ∈ before, x.isVisit = false) ∨
    ∃ older p since, before = older ++ .visit p :: since ∧ (∀ x ∈ since, x.isVisit = false) ∧
      (since ≠ [] ∨ (e.line, e.depth) ≠ (p.line, p.depth))

/-- Whether a mode asks for a pause at a depth, from the depth where the step was ordered. -/
def StepMode.Asks (origin depth : Nat) : StepMode → Prop
  | .into => True
  | .over => depth ≤ origin
  | .out => depth < origin
  | .onward => False

/-- A step that was ordered: its mode, the depth where it was ordered, and the breakpoints of that moment. -/
structure Order where
  mode : StepMode
  origin : Nat
  breakpoints : List Nat

namespace Order

/-- What a session is started with. -/
def first : Order := ⟨.into, 0, []⟩

/-- The order stops at a statement with this trace before it. -/
def Stops (o : Order) (before : List Sight) (e : Entry) : Prop :=
  (Arrives before e ∧ e.line ∈ o.breakpoints) ∨ o.mode.Asks o.origin e.depth

/-- The order stops nowhere in `skipped`, with the trace `before` it. -/
def Free (o : Order) (before skipped : List Sight) : Prop :=
  ∀ older e since, skipped = older ++ .visit e :: since → ¬o.Stops (before ++ older) e

end Order

section Latest

variable {before : List Sight} {e : Entry}

theorem latest_append_visit (before : List Sight) (e : Entry) :
    latest (before ++ [.visit e]) = some (e.line, e.depth) := by
  rw [latest, List.getLast?_concat]

theorem latest_append_lap (before : List Sight) (depth : Nat) : latest (before ++ [.lap depth]) = none := by
  rw [latest, List.getLast?_concat]

theorem isAt_iff {line depth : Nat} {x : Sight} :
    IsAt line depth x = true ↔ ∃ e, x = .visit e ∧ e.line = line ∧ e.depth = depth := by
  cases x with
  | visit e => simp [IsAt]
  | lap d => simp [IsAt]

theorem latest_append_one {line depth : Nat} (x : Sight) :
    latest (before ++ [x]) = some (line, depth) ↔ IsAt line depth x = true := by
  cases x with
  | visit e => simp [latest_append_visit, IsAt]
  | lap d => simp [latest_append_lap, IsAt]

/-- A trace without statements ends with none. -/
theorem latest_of_no_visit (h : ∀ x ∈ before, x.isVisit = false) : latest before = none := by
  unfold latest
  split
  · rename_i p hp
    cases h _ (List.mem_of_getLast? hp)
  · rfl

theorem latest_append {more : List Sight} (h : more ≠ []) : latest (before ++ more) = latest more := by
  rw [latest, latest, List.getLast?_append, List.getLast?_eq_some_getLast h, Option.some_or]

/-- The last statement of a trace that has one. -/
theorem exists_last_visit {trace : List Sight} (h : ¬∀ x ∈ trace, x.isVisit = false) :
    ∃ older p since, trace = older ++ .visit p :: since ∧ ∀ x ∈ since, x.isVisit = false := by
  induction trace with
  | nil => exact absurd (by simp) h
  | cons x rest ih =>
    by_cases hr : ∀ y ∈ rest, y.isVisit = false
    · cases x with
      | visit p => exact ⟨[], p, rest, rfl, hr⟩
      | lap depth => exact absurd (by simpa [Sight.isVisit] using hr) h
    · obtain ⟨older, p, since, rfl, hs⟩ := ih hr
      exact ⟨x :: older, p, since, rfl, hs⟩

/-- A statement arrives unless the trace ends with one at the same place. -/
theorem arrives_iff : Arrives before e ↔ latest before ≠ some (e.line, e.depth) := by
  have hsplit : ∀ (older : List Sight) (p : Entry) (since : List Sight), (∀ x ∈ since, x.isVisit = false) →
      latest (older ++ .visit p :: since) = if since = [] then some (p.line, p.depth) else none := by
    intro older p since hs
    rw [latest_append (List.cons_ne_nil _ _)]
    split
    · rename_i h
      rw [h]
      rfl
    · rename_i h
      rw [← List.singleton_append, latest_append h, latest_of_no_visit hs]
  constructor
  · rintro (h | ⟨older, p, since, rfl, hs, h⟩)
    · rw [latest_of_no_visit h]
      exact (Option.some_ne_none _).symm
    · rw [hsplit older p since hs]
      split
      · rename_i hn
        exact fun he => h.resolve_left (fun h => h hn) (Option.some.inj he).symm
      · exact (Option.some_ne_none _).symm
  · intro h
    by_cases hv : ∀ x ∈ before, x.isVisit = false
    · exact Or.inl hv
    · obtain ⟨older, p, since, rfl, hs⟩ := exists_last_visit hv
      refine Or.inr ⟨older, p, since, rfl, hs, ?_⟩
      rw [hsplit older p since hs] at h
      by_cases hn : since = []
      · rw [if_pos hn] at h
        exact Or.inr fun he => h (congrArg some he.symm)
      · exact Or.inl hn

end Latest

/-! ## The stepper -/

/-- The stepper of an order, with a trace behind it. -/
def Stepper.of (o : Order) (before : List Sight) : Stepper := ⟨o.mode, o.origin, o.breakpoints, latest before⟩

section Stepper

variable {o : Order} {before : List Sight} {e : Entry} {m : Machine}

/-- **The stepper pauses where its order stops.** -/
theorem pausesAt_of : (Stepper.of o before).pausesAt e.line e.depth = true ↔ o.Stops before e := by
  have hw : (Stepper.of o before).wants e.depth = true ↔ o.mode.Asks o.origin e.depth := by
    unfold Stepper.wants Stepper.of
    cases o.mode <;> simp [StepMode.Asks]
  have ha : (Stepper.of o before).arrives e.line e.depth = true ↔ Arrives before e := by
    rw [arrives_iff]
    simp [Stepper.arrives, Stepper.of]
  rw [Order.Stops, ← hw, ← ha]
  simp [Stepper.pausesAt, Stepper.of]

/-- A session advances past a step that shows no statement at which its order stops. -/
theorem advance_passes (k : Script) (hw : m.waiting? = none) (hf : m.finished? = none)
    (hs : ∀ e, m.sights = [.visit e] → ¬o.Stops before e) :
    m.advance (observer (scriptSink none)) (.of o before, k) =
      .going (.of o (before ++ m.sights), ⟨k.inputs, k.transcript.hear m.step.2⟩) m.step.1 := by
  rw [advance_eq _ _ hw hf]
  rcases hm : m.step with ⟨m', event⟩
  have hx : m.sights = (event.bind (Event.sight? m')).toList := by rw [sights, hm]
  cases event with
  | none => rw [hx, show (none.bind (Event.sight? m')).toList = [] from rfl, List.append_nil]; rfl
  | some event =>
    cases event with
    | visit line =>
      have hp := mt pausesAt_of.1 (hs _ hx)
      simp only [observer, Stepper.hook, hx]
      rw [if_neg hp]
      simp only [Event.sight?, Option.bind, Option.toList, Stepper.of, latest_append_visit]
      rfl
    | lap =>
      simp only [hx, Event.sight?, Option.bind, Option.toList, Stepper.of, latest_append_lap]
      rfl
    | write | writeLine | clear =>
      rw [hx]
      simp only [Event.sight?, Option.bind, Option.toList, List.append_nil]
      rfl

/-- A session comes to rest before a statement at which its order stops. -/
theorem advance_stops (k : Script) (hx : m.sights = [.visit e]) (hs : o.Stops before e) :
    m.advance (observer (scriptSink none)) (.of o before, k) =
      .resting (.of o (before ++ m.sights), ⟨k.inputs, k.transcript.hear m.step.2⟩) m.step.1 := by
  obtain ⟨s, hm, -, he, hstep⟩ := step_of_visit hx
  obtain ⟨hf, hw⟩ := unrested (Or.inl hm)
  have hd : (m.turn (.exec s)).depth = e.depth := by rw [he]; rfl
  rw [advance_eq _ _ hw hf, hstep]
  simp only [observer, Stepper.hook, hd]
  rw [if_pos (pausesAt_of.2 hs), hx]
  simp only [Stepper.of, latest_append_visit]
  rfl

end Stepper

/-! ## One step of a session -/

namespace Controller

/-- The session is paused before a statement, and the machine is about to carry it out. -/
structure PausedAt (c : Controller Script) (e : Entry) (m : Machine) : Prop where
  state : c.state = .paused
  live : ∃ stepper, c.live = some ⟨m, stepper⟩
  /-- What the pause shows is the statement, the depth of calls and the number of the top-level statement. -/
  snapshot : ∃ s, c.snapshot = some s ∧ s.line = e.line ∧ s.callDepth = e.depth ∧ s.cursor = e.cursor

/-- What a step of a session comes to, from `c` with the machine `m`, an order and the trace before it. -/
inductive Ticked (o : Order) (before : List Sight) (m : Machine) (k : Script) (c c' : Controller Script) : Prop
  | ends {result : Except Diagnostic Value} : m.finished? = some result → c'.Over result k → Ticked o before m k c c'
  | waits {prompt : String} : m.focus = .await prompt → c'.Underway m (.of o before) k → c'.state = .running →
      c'.prompt = some prompt → Ticked o before m k c c'
  | pauses {e : Entry} {k' : Script} : m.sights = [.visit e] → o.Stops before e →
      c'.Underway m.step.1 (.of o (before ++ m.sights)) k' → c'.PausedAt e m.step.1 → Ticked o before m k c c'
  | passes {k' : Script} : ¬m.Back [] → m.waiting? = none → (∀ e, m.sights = [.visit e] → ¬o.Stops before e) →
      c'.Underway m.step.1 (.of o (before ++ m.sights)) k' → c'.state = c.state → c'.prompt = none →
      Ticked o before m k c c'

section Tick

variable {c : Controller Script} {m : Machine} {k : Script} {o : Order} {before : List Sight}

/-- A session whose program ended is over. -/
theorem over_rest {result : Except Diagnostic Value} (hm : m.Lively) (hf : m.finished? = some result)
    (hc : c.console = some k) (he : c.lastError = none) (stepper : Stepper) : (c.rest stepper m).Over result k := by
  have hr : c.rest stepper m = c.finish (result.map fun _ => ()) := by
    cases result <;> simp only [rest, hf] <;> rfl
  rw [hr]
  refine over_finish hc he fun d hd => hm.finished (hf.trans ?_)
  rw [hd]

/-- A session that is held before a statement is paused there. -/
theorem paused_rest {e : Entry} (hm : m.Lively) (hx : m.sights = [.visit e]) (hs : c.sink = scriptSink none)
    (hc : c.console = some k) (he : c.lastError = none) (hp : c.prompt = none) (o : Order) (before : List Sight) :
    (c.rest (.of o (before ++ m.sights)) m.step.1).Underway m.step.1 (.of o (before ++ m.sights)) k ∧
      (c.rest (.of o (before ++ m.sights)) m.step.1).PausedAt e m.step.1 := by
  have hl : (Stepper.of o (before ++ m.sights)).lastSeen = some (e.line, e.depth) := by
    rw [hx]
    exact latest_append_visit before e
  have hm' := hm.step
  obtain ⟨s, -, -, rfl, hstep⟩ := step_of_visit hx
  rw [hstep] at hm' ⊢
  obtain ⟨hf, hw⟩ := unrested (m := m.turn (.exec s)) (Or.inr rfl)
  simp only [rest, hf, hw]
  refine ⟨⟨hs, rfl, hc, rfl, he, Or.inl hp, hm'⟩, rfl, ⟨_, rfl⟩, _, rfl, ?_, rfl, rfl⟩
  simp [Snapshot.capture, hl]

/-- **One step of a session**: it ends with its program, it waits with it, it pauses where its order stops, and
otherwise it goes on. -/
theorem Underway.ticked (h : c.Underway m (.of o before) k) (hg : c.isGoing = true) : Ticked o before m k c c.tick := by
  have hp := prompt_of_isGoing hg
  rw [h.tick_eq hg]
  cases hf : m.finished? with
  | some result =>
    rw [advance_finished _ _ hf]
    exact .ends hf (over_rest (c := { c with live := none, console := some k }) h.lively hf rfl h.unfailed _)
  | none =>
    cases hw : m.waiting? with
    | some prompt =>
      have hm := focus_of_waiting? hw
      have ha : m.advance (observer (scriptSink none)) (Stepper.of o before, k) = .resting (.of o before, k) m := by
        unfold advance
        rw [hm]
        rfl
      rw [ha]
      simp only [rest, hf, hw]
      exact .waits hm ⟨h.sink, rfl, rfl, rfl, h.unfailed, Or.inr ⟨prompt, hm⟩, h.lively⟩ rfl rfl
    | none =>
      by_cases hs : ∃ e, m.sights = [.visit e] ∧ o.Stops before e
      · obtain ⟨e, hx, hs⟩ := hs
        rw [advance_stops k hx hs]
        obtain ⟨hu, hpause⟩ := paused_rest (c := { c with live := none, console := some _ }) h.lively hx h.sink rfl
          h.unfailed hp o before
        exact .pauses hx hs hu hpause
      · have hpass : ∀ e, m.sights = [.visit e] → ¬o.Stops before e := fun e hx hs' => hs ⟨e, hx, hs'⟩
        have hb : ¬m.Back [] := by
          rw [← isFinished_iff, isFinished_eq, hf]
          exact Bool.false_ne_true
        rw [advance_passes k hw hf hpass]
        exact .passes hb hw hpass ⟨h.sink, rfl, rfl, h.opened, h.unfailed, Or.inl hp, h.lively.step⟩ rfl hp

end Tick

end Controller

end StepScript.Debugger
