import StepScript.Proofs.Debugger.Pauses

/-!
# Sessions that are only resumed

A session that is only resumed is looked at act by act (`Act`): a step of its own, or something that the host does.
`noted` is what it shows in a row of acts, each sight with whether the session paused at it.

While a line stays among the breakpoints, the session pauses at a statement on that line exactly if the statement
arrives there (`Marked`): one act keeps this (`Kept.act`), so does a row of acts (`Kept.noted`).
-/

namespace StepScript.Debugger

open Machine

/-- What happens in a session that is only resumed. -/
inductive Act where
  /-- The session takes a step, if it is going. -/
  | tick
  | resume
  | input (line : String)
  | breakpoints (lines : List Nat)
  /-- The host looks at what its view was told. -/
  | view

/-- Whether a line stays among the breakpoints. -/
def Act.keeps (line : Nat) : Act → Bool
  | breakpoints lines => lines.contains line
  | _ => true

namespace Controller

/-- The session after an act; a command that is refused changes nothing. -/
def act (c : Controller Script) : Act → Controller Script
  | .tick => c.tick
  | .resume => (c.resume .onward).toOption.getD c
  | .input line => (c.provideInput line).toOption.getD c
  | .breakpoints lines => { c with breakpoints := lines }
  | .view => c.takeView.2

/-- The session after a row of acts. -/
def after (c : Controller Script) (acts : List Act) : Controller Script := acts.foldl act c

/-- What shows in an act, and whether the session paused at it. -/
def notes (c : Controller Script) : Act → List (Sight × Bool)
  | .tick =>
    match c.isGoing, c.live with
    | true, some live => live.machine.sights.map fun x => (x, c.tick.state == .paused)
    | _, _ => []
  | _ => []

/-- What shows in a row of acts, each with whether the session paused at it. -/
def noted (c : Controller Script) : List Act → List (Sight × Bool)
  | [] => []
  | a :: acts => c.notes a ++ (c.act a).noted acts

/-- Whether the machine of the session is as wanted all through a row of acts: before, between and after them. -/
def during (want : Machine → Bool) (c : Controller Script) : List Act → Bool
  | [] => c.live.all (want ·.machine)
  | a :: acts => c.live.all (want ·.machine) && (c.act a).during want acts

end Controller

/-- A session that came to `trace` paused at the statements on a line exactly where they arrive. -/
def Marked (line : Nat) : (trace : List Sight) → List (Sight × Bool) → Prop
  | _, [] => True
  | trace, (x, paused) :: rest =>
    (∀ e, x = .visit e → e.line = line → (paused = true ↔ Arrives trace e)) ∧ Marked line (trace ++ [x]) rest

theorem Marked.append {line : Nat} {trace : List Sight} {xs ys : List (Sight × Bool)} (hx : Marked line trace xs)
    (hy : Marked line (trace ++ xs.map Prod.fst) ys) : Marked line trace (xs ++ ys) := by
  induction xs generalizing trace with
  | nil => simpa using hy
  | cons x xs ih =>
    refine ⟨hx.1, ih hx.2 ?_⟩
    rwa [List.append_assoc, List.singleton_append]

/-! ## Orders that mind a line -/

/-- On the line the order stops at arrivals and nowhere else: it goes from breakpoint to breakpoint, and the line is one
of them, or it is the first order and no statement has been shown. -/
def Order.Minds (o : Order) (line : Nat) (trace : List Sight) : Prop :=
  (o.mode = .onward ∧ line ∈ o.breakpoints) ∨ (o = .first ∧ ∀ x ∈ trace, x.isVisit = false)

section Minds

variable {o : Order} {line : Nat} {trace : List Sight}

theorem Order.Minds.stops_iff (h : o.Minds line trace) {e : Entry} (he : e.line = line) :
    o.Stops trace e ↔ Arrives trace e := by
  rcases h with ⟨hm, hb⟩ | ⟨rfl, hv⟩
  · rw [← he] at hb
    simp [Order.Stops, hm, StepMode.Asks, hb]
  · exact ⟨fun _ => Or.inl hv, fun _ => Or.inr trivial⟩

/-- Past a step at which it does not stop, the order minds the line as before. -/
theorem Order.Minds.passes (h : o.Minds line trace) {m : Machine}
    (hs : ∀ e, m.sights = [.visit e] → ¬o.Stops trace e) : o.Minds line (trace ++ m.sights) := by
  rcases h with h | ⟨rfl, hv⟩
  · exact Or.inl h
  · refine Or.inr ⟨rfl, ?_⟩
    intro x hx
    rcases List.mem_append.1 hx with hx | hx
    · exact hv x hx
    · cases x with
      | visit e => exact absurd (Or.inr trivial) (hs e (eq_of_mem_sights hx))
      | lap depth => rfl

end Minds

namespace Controller

/-! ## One act -/

/-- The line is kept among the breakpoints: the session has come to `trace`, and is over, paused at its last statement,
or under an order that minds the line. -/
structure Kept (line : Nat) (trace : List Sight) (c : Controller Script) : Prop where
  set : line ∈ c.breakpoints
  session : c.live = none ∨ ∃ o m k, c.Underway m (.of o trace) k ∧
    if c.state = .paused then latest trace ≠ none else o.Minds line trace

section Kept

variable {line : Nat} {trace : List Sight} {c : Controller Script}

theorem breakpoints_rest (stepper : Stepper) (m : Machine) : (c.rest stepper m).breakpoints = c.breakpoints := by
  unfold rest
  split
  · rfl
  · exact record_breakpoints _ _
  · dsimp only
    split <;> rfl

theorem breakpoints_tick : c.tick.breakpoints = c.breakpoints := by
  unfold tick
  split
  · split
    · split
      · rfl
      · exact breakpoints_rest _ _
    · rfl
  · rfl

theorem notes_of_rest (h : c.isGoing = false) : c.notes .tick = [] := by
  simp [notes, h]

theorem notes_of_going {m : Machine} {stepper : Stepper} {k : Script} (h : c.Underway m stepper k)
    (hg : c.isGoing = true) : c.notes .tick = m.sights.map fun x => (x, c.tick.state == .paused) := by
  simp [notes, hg, h.live]

theorem map_notes_of_going {m : Machine} {stepper : Stepper} {k : Script} (h : c.Underway m stepper k)
    (hg : c.isGoing = true) : (c.notes .tick).map Prod.fst = m.sights := by
  rw [notes_of_going h hg, List.map_map]
  exact List.map_id _

/-- What a step of the session shows is marked, and the line is kept. -/
theorem Kept.tick (h : c.Kept line trace) :
    Marked line trace (c.notes .tick) ∧ c.tick.Kept line (trace ++ (c.notes .tick).map Prod.fst) := by
  cases hg : c.isGoing with
  | false =>
    rw [notes_of_rest hg, tick_of_rest hg, List.map_nil, List.append_nil]
    exact ⟨trivial, h⟩
  | true =>
    obtain ⟨hset, hlive | ⟨o, m, k, hu, hmode⟩⟩ := h
    · simp [isGoing, hlive] at hg
    · have hn : c.state ≠ .paused := (hu.isGoing_iff.1 hg).2
      have hminds : o.Minds line trace := by rwa [if_neg hn] at hmode
      have hset' : line ∈ c.tick.breakpoints := by rwa [breakpoints_tick]
      rw [map_notes_of_going hu hg, notes_of_going hu hg]
      cases hu.ticked hg with
      | ends hf ho =>
        rw [sights_of_back (back_of_finished hf), List.append_nil]
        exact ⟨trivial, hset', Or.inl ho.live⟩
      | waits hw hu' hst _ =>
        rw [sights_of_await hw, List.append_nil]
        exact ⟨trivial, hset', Or.inr ⟨o, m, k, hu', by rwa [hst, if_neg (by decide)]⟩⟩
      | @pauses e k' hx hs hu' hp =>
        have hlast : latest (trace ++ m.sights) ≠ none := by
          rw [hx, latest_append_visit]
          exact Option.some_ne_none _
        refine ⟨?_, hset', Or.inr ⟨o, _, k', hu', by rwa [if_pos hp.state]⟩⟩
        rw [hx, hp.state]
        refine ⟨?_, trivial⟩
        rintro _ ⟨rfl⟩ he
        simp only [BEq.rfl, true_iff]
        exact (hminds.stops_iff he).1 hs
      | @passes k' _ _ hs hu' hst _ =>
        refine ⟨?_, hset', Or.inr ⟨o, _, k', hu', by rw [hst, if_neg hn]; exact hminds.passes hs⟩⟩
        have hflag : (c.tick.state == State.paused) = false := by
          rw [hst]
          simpa using hn
        rw [hflag]
        rcases sights_cases m with hx | ⟨s, -, -, hx, -⟩ | ⟨v, condition, body, rest, -, -, hx, -⟩
        · rw [hx]
          trivial
        · rw [hx]
          refine ⟨?_, trivial⟩
          rintro _ ⟨rfl⟩ he
          simp only [Bool.false_eq_true, false_iff]
          exact mt (hminds.stops_iff he).2 (hs _ hx)
        · rw [hx]
          exact ⟨fun e he => (by cases he), trivial⟩

theorem Kept.resume (h : c.Kept line trace) : (c.act .resume).Kept line trace := by
  show ((c.resume .onward).toOption.getD c).Kept line trace
  cases hr : c.resume .onward with
  | error e => exact h
  | ok c' =>
    show c'.Kept line trace
    have hb : c'.breakpoints = c.breakpoints := by
      unfold Controller.resume at hr
      split at hr <;> cases hr
      rfl
    obtain ⟨hset, hlive | ⟨o, m, k, hu, -⟩⟩ := h
    · rw [resume_of_dead hlive] at hr
      cases hr
    · obtain ⟨-, hst, -, hu'⟩ := hu.ordered hr
      refine ⟨by rw [← hb] at hset; exact hset, Or.inr ⟨⟨.onward, m.depth, c.breakpoints⟩, m, k, hu', ?_⟩⟩
      rw [hst, if_neg (by decide)]
      exact Or.inl ⟨rfl, hset⟩

theorem Kept.input (h : c.Kept line trace) (text : String) : (c.act (.input text)).Kept line trace := by
  show ((c.provideInput text).toOption.getD c).Kept line trace
  cases hr : c.provideInput text with
  | error e => exact h
  | ok c' =>
    have hb : c'.breakpoints = c.breakpoints ∧ c'.state = c.state := by
      unfold Controller.provideInput at hr
      split at hr <;> cases hr
      exact ⟨rfl, rfl⟩
    obtain ⟨hset, hlive | ⟨o, m, k, hu, hmode⟩⟩ := h
    · rw [provideInput_of_dead hlive] at hr
      cases hr
    · rw [← hb.1] at hset
      rw [← hb.2] at hmode
      exact ⟨hset, Or.inr ⟨o, _, k, (hu.provideInput hr).2, hmode⟩⟩

/-- What the host does with its view keeps the line, if the line stays among the breakpoints. -/
theorem Kept.look (h : c.Kept line trace) {breakpoints : List Nat} (hb : line ∈ breakpoints) (view : Array ViewCall) :
    Kept line trace { c with breakpoints := breakpoints, view := view } := by
  obtain ⟨-, hlive | ⟨o, m, k, hu, hmode⟩⟩ := h
  · exact ⟨hb, Or.inl hlive⟩
  · exact ⟨hb, Or.inr ⟨o, m, k, hu.look breakpoints view, hmode⟩⟩

/-- **One act**: what it shows is marked, and the line is kept. -/
theorem Kept.act (h : c.Kept line trace) {a : Act} (ha : a.keeps line = true) :
    Marked line trace (c.notes a) ∧ (c.act a).Kept line (trace ++ (c.notes a).map Prod.fst) := by
  -- a command shows nothing
  have hcommand : ∀ {c' : Controller Script}, c'.Kept line trace →
      c'.Kept line (trace ++ ([] : List (Sight × Bool)).map Prod.fst) := by
    intro c' h'
    rwa [List.map_nil, List.append_nil]
  cases a with
  | tick => exact h.tick
  | resume => exact ⟨trivial, hcommand h.resume⟩
  | input text => exact ⟨trivial, hcommand (h.input text)⟩
  | breakpoints lines => exact ⟨trivial, hcommand (h.look (by simpa [Act.keeps] using ha) c.view)⟩
  | view => exact ⟨trivial, hcommand (h.look h.set #[])⟩

/-! ## Rows of acts -/

/-- What shows in an act is what a step of the machine shows. -/
theorem mem_notes {a : Act} {y : Sight × Bool} (h : y ∈ c.notes a) :
    ∃ live, c.live = some live ∧ y.1 ∈ live.machine.sights := by
  unfold notes at h
  split at h
  · split at h
    · rename_i live _ hl
      obtain ⟨x, hx, rfl⟩ := List.mem_map.1 h
      exact ⟨live, hl, hx⟩
    · cases h
  · cases h

/-- What shows all through a row of acts shows while the machine is as wanted. -/
theorem mem_noted {want : Machine → Bool} {acts : List Act} {y : Sight × Bool} (h : c.during want acts = true)
    (hy : y ∈ c.noted acts) : ∃ m : Machine, want m = true ∧ y.1 ∈ m.sights := by
  induction acts generalizing c with
  | nil => cases hy
  | cons a acts ih =>
    simp only [during, Bool.and_eq_true] at h
    rcases List.mem_append.1 hy with hy | hy
    · obtain ⟨live, hl, hx⟩ := mem_notes hy
      have hw := h.1
      rw [hl] at hw
      exact ⟨live.machine, hw, hx⟩
    · exact ih h.2 hy

/-- **All that a session shows is marked**, as long as the line is kept among the breakpoints. -/
theorem Kept.noted {acts : List Act} (h : c.Kept line trace) (ha : ∀ a ∈ acts, a.keeps line = true) :
    Marked line trace (c.noted acts) ∧ (c.after acts).Kept line (trace ++ (c.noted acts).map Prod.fst) := by
  induction acts generalizing c trace with
  | nil =>
    rw [Controller.noted, List.map_nil, List.append_nil]
    exact ⟨trivial, h⟩
  | cons a acts ih =>
    obtain ⟨hm, hk⟩ := h.act (ha a (by simp))
    obtain ⟨hm', hk'⟩ := ih hk fun b hb => ha b (by simp [hb])
    refine ⟨hm.append hm', ?_⟩
    rw [Controller.noted, List.map_append, ← List.append_assoc]
    exact hk'

/-- A session that is started minds every line that has a breakpoint. -/
theorem kept_start {c' : Controller Script} {k : Script} {entropy : Random} {source : String} {program : Program}
    (hs : c.sink = scriptSink none) (hp : compile source = .ok program) (h : c.start source k entropy = .ok c')
    (hl : line ∈ c.breakpoints) : c'.Kept line [] := by
  obtain ⟨hu, -⟩ := underway_start hs hp h
  unfold start at h
  split at h
  · cases h
  · rw [hp] at h
    cases h
    exact ⟨hl, Or.inr ⟨.first, _, k, hu, Or.inr ⟨rfl, by simp⟩⟩⟩

end Kept

/-! ## The machine of a session -/

/-- What an act makes of the machine `m` of a session, that is `c` after the act, with what shows. -/
inductive Acted (m : Machine) (c : Controller Script) : List Sight → Prop
  | stays {stepper : Stepper} {k : Script} : c.Underway m stepper k → Acted m c []
  | steps {stepper : Stepper} {k : Script} : ¬m.Back [] → m.waiting? = none → c.Underway m.step.1 stepper k →
      Acted m c m.sights
  | reads {prompt line : String} {stepper : Stepper} {k : Script} : m.focus = .await prompt →
      c.Underway (m.answer (.line line)) stepper k → Acted m c []
  /-- The program was at its end, and the session is over. -/
  | ends : m.Back [] → c.live = none → Acted m c []

section Acted

variable {c : Controller Script} {m : Machine} {stepper : Stepper} {k : Script}

/-- Every stepper is that of an order with a trace behind it. -/
theorem exists_stepper_of (stepper : Stepper) : ∃ o before, stepper = .of o before := by
  obtain ⟨mode, origin, breakpoints, lastSeen⟩ := stepper
  cases lastSeen with
  | none => exact ⟨⟨mode, origin, breakpoints⟩, [], rfl⟩
  | some seen => exact ⟨⟨mode, origin, breakpoints⟩, [.visit ⟨seen.1, seen.2, 0⟩], rfl⟩

theorem Underway.acted_tick (h : c.Underway m stepper k) : Acted m c.tick ((c.notes .tick).map Prod.fst) := by
  cases hg : c.isGoing with
  | false =>
    rw [notes_of_rest hg, tick_of_rest hg]
    exact .stays h
  | true =>
    obtain ⟨o, before, rfl⟩ := exists_stepper_of stepper
    rw [map_notes_of_going h hg]
    cases h.ticked hg with
    | ends hf ho =>
      have hb := back_of_finished hf
      rw [sights_of_back hb]
      exact .ends hb ho.live
    | waits hw hu =>
      rw [sights_of_await hw]
      exact .stays hu
    | pauses hx _ hu _ =>
      obtain ⟨hb, hw⟩ := unrested_of_visit hx
      exact .steps hb hw hu
    | passes hb hw _ hu => exact .steps hb hw hu

/-- **What one act does to the machine**: nothing, one step, or a line is read; or the session ends with its program. -/
theorem Underway.acted (h : c.Underway m stepper k) (a : Act) : Acted m (c.act a) ((c.notes a).map Prod.fst) := by
  cases a with
  | tick => exact h.acted_tick
  | resume =>
    show Acted m ((c.resume .onward).toOption.getD c) []
    cases hr : c.resume .onward with
    | error e => exact .stays h
    | ok c' =>
      obtain ⟨stepper', h'⟩ := h.resume hr
      exact .stays h'
  | input line =>
    show Acted m ((c.provideInput line).toOption.getD c) []
    cases hr : c.provideInput line with
    | error e => exact .stays h
    | ok c' =>
      obtain ⟨⟨prompt, hm⟩, h'⟩ := h.provideInput hr
      exact .reads hm h'
  | breakpoints lines => exact .stays (h.look lines c.view)
  | view => exact .stays (h.look c.breakpoints #[])

/-- A session that is over stays so, and shows nothing. -/
theorem dead_after (h : c.live = none) (acts : List Act) : (c.after acts).live = none ∧ c.noted acts = [] := by
  induction acts generalizing c with
  | nil => exact ⟨h, rfl⟩
  | cons a acts ih =>
    have hg : c.isGoing = false := by simp [isGoing, h]
    have hact : (c.act a).live = none ∧ c.notes a = [] := by
      cases a with
      | tick => exact ⟨by rw [act, tick_of_rest hg]; exact h, notes_of_rest hg⟩
      | resume => exact ⟨by rw [act, resume_of_dead h]; exact h, rfl⟩
      | input line => exact ⟨by rw [act, provideInput_of_dead h]; exact h, rfl⟩
      | breakpoints | view => exact ⟨h, rfl⟩
    obtain ⟨hlive, hnoted⟩ := ih hact.1
    exact ⟨hlive, by rw [noted, hact.2, hnoted]; rfl⟩

theorem Underway.wanted {want : Machine → Bool} {acts : List Act} (h : c.Underway m stepper k)
    (hd : c.during want acts = true) : want m = true := by
  cases acts with
  | nil => simpa [during, h.live] using hd
  | cons a acts =>
    simp only [during, h.live, Option.all_some, Bool.and_eq_true] at hd
    exact hd.1

/-- **What a step of the machine keeps, and a line that is read, is kept by a row of acts**, with what shows, as long as
the machine is as wanted. -/
theorem Underway.along {I : List Sight → Machine → Prop} {want : Machine → Bool} {acts : List Act}
    (hstep : ∀ xs m, I xs m → m.Lively → ¬m.Back [] → m.waiting? = none → want m.step.1 = true →
      I (xs ++ m.sights) m.step.1)
    (hread : ∀ xs m prompt line, I xs m → m.focus = .await prompt → I xs (m.answer (.line line)))
    (xs : List Sight) (h : c.Underway m stepper k) (hi : I xs m) (hd : c.during want acts = true) :
    ∃ m', I (xs ++ (c.noted acts).map Prod.fst) m' ∧
      ((∃ stepper' k', (c.after acts).Underway m' stepper' k') ∨ (c.after acts).live = none ∧ m'.Back []) := by
  induction acts generalizing c m stepper k xs with
  | nil => exact ⟨m, by rwa [noted, List.map_nil, List.append_nil], Or.inl ⟨stepper, k, h⟩⟩
  | cons a acts ih =>
    simp only [during, Bool.and_eq_true] at hd
    have hacted := h.acted a
    rw [noted, List.map_append, ← List.append_assoc]
    generalize (c.notes a).map Prod.fst = shown at hacted
    cases hacted with
    | stays hu =>
      rw [List.append_nil]
      exact ih xs hu hi hd.2
    | steps hb hw hu => exact ih _ hu (hstep xs m hi h.lively hb hw (hu.wanted hd.2)) hd.2
    | @reads prompt line _ _ hm hu =>
      rw [List.append_nil]
      exact ih xs hu (hread xs m prompt line hi hm) hd.2
    | ends hb hdead =>
      obtain ⟨hlive, hnoted⟩ := dead_after hdead acts
      rw [hnoted, List.map_nil, List.append_nil, List.append_nil]
      exact ⟨m, hi, Or.inr ⟨hlive, hb⟩⟩

theorem during_true (acts : List Act) : c.during (fun _ => true) acts = true := by
  induction acts generalizing c with
  | nil => simp [during]
  | cons a acts ih => simp [during, ih]

end Acted

end Controller

end StepScript.Debugger
