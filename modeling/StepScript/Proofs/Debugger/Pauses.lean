import StepScript.Proofs.Debugger.Rule
import StepScript.Proofs.Grammar.Scanning
import StepScript.Proofs.Machine.Home

/-!
# A session pauses where the rule says

A command that sets a session going puts it under an order. The session then passes the statements at which the order
does not stop, and pauses at the first one where it does, whatever lines it is given on the way and however the
breakpoints change meanwhile; if there is none, it ends with its program.

* `Stands` says how a session stands that was put under an order; `Obeys` says that every rest of the session is of that
  kind, and that it does come to the pause or to the end that the trace has for it.
* `Heeds` is the invariant behind the first half: one step keeps it (`Heeds.tick`), so does every command.
* `Reaches` is behind the second half: a part of the trace that the order does not stop in is passed
  (`reaches_of_shows`).
-/

namespace StepScript.Debugger

open Machine

/-! ## Commands between two pauses -/

/-- Commands to a session that is not paused, so that no step is ordered, with the lines that the program was given. -/
inductive Awaited : Controller Script → List String → Controller Script → Prop
  | refl (c : Controller Script) : Awaited c [] c
  | command {c c' c'' : Controller Script} {lines more : List String} :
      Awaited c lines c' → c'.state ≠ .paused → Commanded c' more c'' → Awaited c (lines ++ more) c''

/-- A session takes lines, one for each prompt. -/
inductive Answered (fuel : Nat) : Controller Script → List String → Controller Script → Prop
  | refl (c : Controller Script) : Answered fuel c [] c
  | input {c c' c'' : Controller Script} {line : String} {lines : List String} {state : State} :
      c.input fuel line = some (.ok state, c') → Answered fuel c' lines c'' → Answered fuel c (line :: lines) c''

namespace Controller

/-- How a session stands that was put under an order, with the trace `before` behind it and the machine `m`, and was
given `lines` since: it skipped what the order does not stop at, and is paused where it stops, waits for a line, or has
ended with the program. -/
def Stands (o : Order) (before : List Sight) (m : Machine) (lines : List String) (c : Controller Script) : Prop :=
  ∃ skipped m', Shows m lines skipped m' ∧ o.Free before skipped ∧
    ((∃ e, m'.sights = [.visit e] ∧ o.Stops (before ++ skipped) e ∧ c.PausedAt e m'.step.1) ∨
      (∃ prompt, m'.focus = .await prompt ∧ c.prompt.isSome = true ∧ c.state ≠ .paused) ∨
      ∃ result, m'.finished? = some result ∧ c.Reports result)

/-- A command puts the session under an order, and the session obeys: wherever it is found after that, it stands by the
order; and it comes to the first statement at which the order stops, or to the end of the program if there is none. -/
structure Obeys (o : Order) (before : List Sight) (m : Machine)
    (command : Nat → Option (Except InvalidState State × Controller Script)) : Prop where
  stands : ∀ fuel answer c lines c', command fuel = some (answer, c) → Awaited c lines c' → c'.Stands o before m lines
  pauses : ∀ lines skipped m' e, Shows m lines skipped m' → o.Free before skipped → m'.sights = [.visit e] →
    o.Stops (before ++ skipped) e → ∃ n state c c', c'.PausedAt e m'.step.1 ∧
      ∀ fuel ≥ n, command fuel = some (.ok state, c) ∧ Answered fuel c lines c'
  ends : ∀ lines skipped m' result, Shows m lines skipped m' → o.Free before skipped →
    m'.finished? = some result → ∃ n state c c', c'.Reports result ∧
      ∀ fuel ≥ n, command fuel = some (.ok state, c) ∧ Answered fuel c lines c'

end Controller

/-! ## Where an order does not stop -/

section Free

variable {o : Order} {before xs ys : List Sight} {m : Machine}

theorem Order.free_nil : o.Free before [] := by
  intro older e since h
  cases older <;> cases h

theorem Order.free_append : o.Free before (xs ++ ys) ↔ o.Free before xs ∧ o.Free (before ++ xs) ys := by
  constructor
  · intro h
    refine ⟨?_, ?_⟩
    · rintro older e since rfl
      exact h older e (since ++ ys) (by simp)
    · rintro older e since rfl
      rw [List.append_assoc]
      exact h (xs ++ older) e since (by simp)
  · rintro ⟨hx, hy⟩ older e since h
    rcases List.append_eq_append_iff.1 h with ⟨mid, rfl, hm⟩ | ⟨mid, rfl, hm⟩
    · rw [← List.append_assoc]
      exact hy mid e since hm
    · cases mid with
      | nil => simpa using hy [] e since hm.symm
      | cons x mid =>
        obtain ⟨rfl, rfl⟩ := List.cons.inj hm
        exact hx older e mid rfl

/-- A step is passed unless it shows a statement at which the order stops. -/
theorem Order.free_sights : o.Free before m.sights ↔ ∀ e, m.sights = [.visit e] → ¬o.Stops before e := by
  constructor
  · intro h e he
    simpa using h [] e [] he
  · intro h older e since hs
    have he := eq_of_mem_sights (x := .visit e) (by rw [hs]; simp)
    rw [he] at hs
    cases older with
    | nil => simpa using h e he
    | cons x older =>
      have := congrArg List.length hs
      simp at this

end Free

namespace Controller

/-! ## A session under an order -/

/-- The session heeds an order: it skipped what the order does not stop at, and goes on, is paused where it stops, or is
over. -/
def Heeds (o : Order) (before : List Sight) (m : Machine) (lines : List String) (c : Controller Script) : Prop :=
  ∃ skipped m' k, Shows m lines skipped m' ∧ o.Free before skipped ∧
    ((c.Underway m' (.of o (before ++ skipped)) k ∧ c.state ≠ .paused) ∨
      (∃ e, m'.sights = [.visit e] ∧ o.Stops (before ++ skipped) e ∧ c.PausedAt e m'.step.1 ∧
        c.Underway m'.step.1 (.of o (before ++ skipped ++ m'.sights)) k) ∨
      ∃ result, m'.finished? = some result ∧ c.Over result k)

section Heeds

variable {o : Order} {before : List Sight} {m : Machine} {lines : List String} {c c' : Controller Script}

theorem Underway.isGoing_iff {stepper : Stepper} {k : Script} (h : c.Underway m stepper k) :
    c.isGoing = true ↔ c.prompt = none ∧ c.state ≠ .paused := by
  have ho := h.opened
  cases hs : c.state <;> simp [isOpen, isGoing, h.live, h.console, hs] at ho ⊢

theorem isGoing_of_paused (h : c.state = .paused) : c.isGoing = false := by
  simp [isGoing, h]

theorem PausedAt.isGoing {e : Entry} (h : c.PausedAt e m) : c.isGoing = false := isGoing_of_paused h.state

/-- **One step of a session keeps its order.** -/
theorem Heeds.tick (h : c.Heeds o before m lines) (hg : c.isGoing = true) : c.tick.Heeds o before m lines := by
  obtain ⟨skipped, m', k, hm, hf, ⟨hu, hp⟩ | ⟨e, -, -, hp, -⟩ | ⟨result, -, ho⟩⟩ := h
  · cases hu.ticked hg with
    | ends hr ho => exact ⟨skipped, m', k, hm, hf, Or.inr (Or.inr ⟨_, hr, ho⟩)⟩
    | waits hw hu' hs =>
      refine ⟨skipped, m', k, hm, hf, Or.inl ⟨hu', ?_⟩⟩
      rw [hs]
      exact State.noConfusion
    | @pauses e k' hx hs hu' hp' => exact ⟨skipped, m', k', hm, hf, Or.inr (Or.inl ⟨e, hx, hs, hp', hu'⟩)⟩
    | @passes k' hb hw hs hu' hst =>
      refine ⟨skipped ++ m'.sights, m'.step.1, k', hm.snoc hb hw, ?_, Or.inl ⟨?_, ?_⟩⟩
      · exact Order.free_append.2 ⟨hf, Order.free_sights.2 hs⟩
      · rwa [← List.append_assoc]
      · rwa [hst]
  · rw [hp.isGoing] at hg
    cases hg
  · rw [ho.isGoing] at hg
    cases hg

theorem Heeds.settle : ∀ {fuel : Nat} {c : Controller Script}, c.Heeds o before m lines → c.settle fuel = some c' →
    c'.Heeds o before m lines
  | 0, c, h, hs => by
    rw [Controller.settle] at hs
    split at hs <;> cases hs
    exact h
  | fuel + 1, c, h, hs => by
    rw [Controller.settle] at hs
    split at hs
    · rename_i hg
      exact (h.tick hg).settle hs
    · cases hs
      exact h

/-- A session that has settled is at rest. -/
theorem rest_of_settle : ∀ {fuel : Nat} {c : Controller Script}, c.settle fuel = some c' → c'.isGoing = false
  | 0, c, hs => by
    rw [Controller.settle] at hs
    split at hs <;> cases hs
    rename_i hg
    simpa using hg
  | fuel + 1, c, hs => by
    rw [Controller.settle] at hs
    split at hs
    · exact rest_of_settle hs
    · cases hs
      rename_i hg
      simpa using hg

/-- A session at rest that heeds an order stands by it. -/
theorem Heeds.stands (h : c.Heeds o before m lines) (hr : c.isGoing = false) : c.Stands o before m lines := by
  obtain ⟨skipped, m', k, hm, hf, ⟨hu, hp⟩ | ⟨e, hx, hs, hp, -⟩ | ⟨result, hres, ho⟩⟩ := h
  · have hn : c.prompt ≠ none := by
      intro hn
      rw [hu.isGoing_iff.2 ⟨hn, hp⟩] at hr
      cases hr
    obtain ⟨prompt, hw⟩ := hu.prompt.resolve_left hn
    exact ⟨skipped, m', hm, hf, Or.inr (Or.inl ⟨prompt, hw, Option.isSome_iff_ne_none.2 hn, hp⟩)⟩
  · exact ⟨skipped, m', hm, hf, Or.inl ⟨e, hx, hs, hp⟩⟩
  · exact ⟨skipped, m', hm, hf, Or.inr (Or.inr ⟨result, hres, ho.reports⟩)⟩

/-! ## Commands to a session under an order -/

/-- What the host does with its view leaves the session alone. -/
theorem Underway.look {stepper : Stepper} {k : Script} (h : c.Underway m stepper k) (breakpoints : List Nat)
    (view : Array ViewCall) : Underway { c with breakpoints := breakpoints, view := view } m stepper k :=
  ⟨h.sink, h.live, h.console, h.opened, h.unfailed, h.prompt, h.lively⟩

theorem Heeds.look (h : c.Heeds o before m lines) (breakpoints : List Nat) (view : Array ViewCall) :
    Heeds o before m lines { c with breakpoints := breakpoints, view := view } := by
  obtain ⟨skipped, m', k, hm, hf, ⟨hu, hp⟩ | ⟨e, hx, hs, hp, hu⟩ | ⟨result, hres, ho⟩⟩ := h
  · exact ⟨skipped, m', k, hm, hf, Or.inl ⟨hu.look breakpoints view, hp⟩⟩
  · exact ⟨skipped, m', k, hm, hf, Or.inr (Or.inl ⟨e, hx, hs, ⟨hp.state, hp.live, hp.snapshot⟩,
      hu.look breakpoints view⟩)⟩
  · exact ⟨skipped, m', k, hm, hf, Or.inr (Or.inr ⟨result, hres, ⟨ho.live, ho.console, ho.reports⟩⟩)⟩

/-- A paused session shows no prompt: a line is refused. -/
theorem Underway.no_prompt {s : Stmt} {stepper : Stepper} {k : Script} (h : c.Underway m stepper k)
    (hm : m.focus = .exec s) : c.prompt = none := by
  rcases h.prompt with h | ⟨prompt, hw⟩
  · exact h
  · rw [hm] at hw
    cases hw

/-- A session that shows a prompt takes a line and goes on. -/
theorem Underway.takes {stepper : Stepper} {k : Script} {prompt : String} (h : c.Underway m stepper k)
    (hp : c.prompt = some prompt) (hs : c.state ≠ .paused) (line : String) :
    ∃ c', c.provideInput line = .ok c' ∧ c'.isGoing = true ∧ c'.Underway (m.answer (.line line)) stepper k := by
  obtain ⟨c', hin⟩ : ∃ c', c.provideInput line = .ok c' := by
    simp only [Controller.provideInput, hp, h.live]
    exact ⟨_, rfl⟩
  have hu := (h.provideInput hin).2
  refine ⟨c', hin, hu.isGoing_iff.2 ?_, hu⟩
  simp only [Controller.provideInput, hp, h.live] at hin
  cases hin
  exact ⟨rfl, hs⟩

/-- A line that the session takes goes to the program, and the order stays. -/
theorem Heeds.provideInput (h : c.Heeds o before m lines) {line : String} (hp : c.provideInput line = .ok c') :
    c'.Heeds o before m (lines ++ [line]) := by
  have hstate : c'.state = c.state := by
    unfold Controller.provideInput at hp
    split at hp <;> cases hp
    rfl
  obtain ⟨skipped, m', k, hm, hf, ⟨hu, hn⟩ | ⟨e, hx, -, -, hu⟩ | ⟨result, -, ho⟩⟩ := h
  · obtain ⟨⟨prompt, hw⟩, hu'⟩ := hu.provideInput hp
    exact ⟨skipped, _, k, hm.snoc_answer hw line, hf, Or.inl ⟨hu', by rwa [hstate]⟩⟩
  · obtain ⟨⟨prompt, hw⟩, -⟩ := hu.provideInput hp
    obtain ⟨s, -, -, -, hs⟩ := step_of_visit hx
    rw [hs] at hw
    cases hw
  · rw [provideInput_of_dead ho.live] at hp
    cases hp

/-- A step that is ordered is taken by a paused session only; it moves nothing but the stepper. -/
theorem Underway.ordered {stepper : Stepper} {k : Script} (h : c.Underway m stepper k) {mode : StepMode}
    (hr : c.resume mode = .ok c') :
    c.state = .paused ∧ c'.state = .running ∧ c'.prompt = c.prompt ∧
      c'.Underway m (stepper.order mode m.depth c.breakpoints) k := by
  unfold Controller.resume at hr
  split at hr
  · rename_i live hs hl
    cases h.live.symm.trans hl
    cases hr
    exact ⟨hs, rfl, rfl, h.sink, rfl, h.console, rfl, h.unfailed, h.prompt, h.lively⟩
  · cases hr

/-- A session that is not paused takes no step. -/
theorem paused_of_resume {mode : StepMode} (h : c.resume mode = .ok c') : c.state = .paused := by
  unfold Controller.resume at h
  split at h
  · assumption
  · cases h

/-- **A step that is ordered puts the session under a new order** from where it is paused, with the breakpoints of that
moment. -/
theorem Heeds.paused (h : c.Heeds o before m lines) (hs : c.state = .paused) :
    ∃ skipped m' e k, Shows m lines skipped m' ∧ m'.sights = [.visit e] ∧ c.PausedAt e m'.step.1 ∧
      ∀ mode, ∃ c', c.resume mode = .ok c' ∧ c'.isGoing = true ∧
        c'.Underway m'.step.1 (.of ⟨mode, e.depth, c.breakpoints⟩ (before ++ skipped ++ [.visit e])) k := by
  obtain ⟨skipped, m', k, hm, hf, ⟨hu, hn⟩ | ⟨e, hx, -, hp, hu⟩ | ⟨result, -, ho⟩⟩ := h
  · exact absurd hs hn
  · refine ⟨skipped, m', e, k, hm, hx, hp, fun mode => ?_⟩
    obtain ⟨c', hr⟩ : ∃ c', c.resume mode = .ok c' := by
      simp only [Controller.resume, hs, hu.live]
      exact ⟨_, rfl⟩
    obtain ⟨-, hst, hpr, hu'⟩ := hu.ordered hr
    obtain ⟨s, -, -, -, hstep⟩ := step_of_visit hx
    have hd := depth_of_mem_sights (m := m') (x := .visit e) (by rw [hx]; simp)
    refine ⟨c', hr, hu'.isGoing_iff.2 ⟨hpr.trans (hu.no_prompt (s := s) (by rw [hstep]; rfl)), ?_⟩, ?_⟩
    · rw [hst]
      exact State.noConfusion
    · rw [hx, hd.2, ← hd.1] at hu'
      exact hu'
  · have hrep := ho.reports
    cases result with
    | ok v => rw [hrep.1] at hs; cases hs
    | error d => rw [hrep.1] at hs; cases hs

/-- A session that is set going by an order heeds it. -/
theorem Underway.heeds {k : Script} (h : c.Underway m (.of o before) k) (hg : c.isGoing = true) :
    c.Heeds o before m [] :=
  ⟨[], m, k, .refl m, Order.free_nil, Or.inl ⟨by rwa [List.append_nil], (h.isGoing_iff.1 hg).2⟩⟩

/-- A command keeps the order, unless it is a step that the session takes. -/
theorem Heeds.commanded (h : c.Heeds o before m lines) (hr : c.isGoing = false) {more : List String}
    (hc : Commanded c more c') :
    (c'.Heeds o before m (lines ++ more) ∧ c'.isGoing = false) ∨
      more = [] ∧ ∃ mode c₁ fuel, c.resume mode = .ok c₁ ∧ c₁.settle fuel = some c' := by
  cases hc with
  | step mode hs =>
    rw [step] at hs
    cases hres : c.resume mode with
    | error e =>
      rw [hres] at hs
      rw [(complete_error hs).2, List.append_nil]
      exact Or.inl ⟨h, hr⟩
    | ok c₁ =>
      rw [hres] at hs
      exact Or.inr ⟨rfl, mode, c₁, _, hres, (complete_ok hs).2⟩
  | input line hs =>
    rw [input] at hs
    cases hp : c.provideInput line with
    | error e =>
      rw [hp] at hs
      cases (complete_error hs).1
    | ok c₁ =>
      rw [hp] at hs
      have hs := (complete_ok hs).2
      exact Or.inl ⟨(h.provideInput hp).settle hs, rest_of_settle hs⟩
  | unasked line hs =>
    rw [input] at hs
    cases hp : c.provideInput line with
    | error e =>
      rw [hp] at hs
      rw [(complete_error hs).2, List.append_nil]
      exact Or.inl ⟨h, hr⟩
    | ok c₁ =>
      rw [hp] at hs
      cases (complete_ok hs).1
  | breakpoints lines =>
    rw [List.append_nil]
    exact Or.inl ⟨h.look lines c.view, hr⟩
  | view =>
    rw [List.append_nil]
    exact Or.inl ⟨h.look c.breakpoints #[], hr⟩

/-- Up to its next pause a session keeps its order. -/
theorem Heeds.awaited (h : c.Heeds o before m lines) (hr : c.isGoing = false) {more : List String}
    (ha : Awaited c more c') : c'.Heeds o before m (lines ++ more) ∧ c'.isGoing = false := by
  induction ha with
  | refl =>
    rw [List.append_nil]
    exact ⟨h, hr⟩
  | command _ hn hc ih =>
    rw [← List.append_assoc]
    refine (ih.1.commanded ih.2 hc).resolve_right ?_
    rintro ⟨-, mode, c₁, -, hres, -⟩
    exact hn (paused_of_resume hres)

end Heeds

/-! ## Coming to a pause or to the end -/

/-- With enough fuel the session settles, takes the lines, and is then as wanted. -/
def Reaches (Q : Controller Script → Prop) (c : Controller Script) (lines : List String) : Prop :=
  ∃ n c₁ c₂, Q c₂ ∧ ∀ fuel ≥ n, c.settle fuel = some c₁ ∧ Answered fuel c₁ lines c₂

section Reaches

variable {Q : Controller Script → Prop} {c c' : Controller Script} {lines : List String}

theorem settle_of_rest (h : c.isGoing = false) (fuel : Nat) : c.settle fuel = some c := by
  cases fuel <;> simp [settle, h]

theorem settle_of_going (h : c.isGoing = true) (fuel : Nat) : c.settle (fuel + 1) = c.tick.settle fuel := by
  rw [settle, if_pos h]

theorem reaches_rest (hr : c.isGoing = false) (hq : Q c) : Reaches Q c [] :=
  ⟨0, c, c, hq, fun fuel _ => ⟨settle_of_rest hr fuel, .refl c⟩⟩

theorem Reaches.of_tick (h : Reaches Q c.tick lines) (hg : c.isGoing = true) : Reaches Q c lines := by
  obtain ⟨n, c₁, c₂, hq, hn⟩ := h
  refine ⟨n + 1, c₁, c₂, hq, fun fuel hfuel => ?_⟩
  obtain ⟨less, rfl⟩ : ∃ less, fuel = less + 1 := ⟨fuel - 1, by omega⟩
  rw [settle_of_going hg]
  exact ⟨(hn less (by omega)).1, (hn (less + 1) (by omega)).2⟩

theorem Reaches.of_input (h : Reaches Q c' lines) (hr : c.isGoing = false) {line : String}
    (hp : c.provideInput line = .ok c') : Reaches Q c (line :: lines) := by
  obtain ⟨n, c₁, c₂, hq, hn⟩ := h
  refine ⟨n, c, c₂, hq, fun fuel hfuel => ⟨settle_of_rest hr fuel, ?_⟩⟩
  obtain ⟨hs, ha⟩ := hn fuel hfuel
  have hin : c.input fuel line = some (.ok c₁.state, c₁) := by rw [input, hp, complete, hs]
  exact .input hin ha

/-- A session passes the part of the trace in which its order does not stop, and takes the lines that the program reads
there. -/
theorem reaches_of_shows {o : Order} {m m' : Machine} {skipped : List Sight} (hm : Shows m lines skipped m') :
    ∀ {c : Controller Script} {before : List Sight} {k : Script}, c.Underway m (.of o before) k → c.isGoing = true →
      o.Free before skipped →
      (∀ (c : Controller Script) (k : Script), c.Underway m' (.of o (before ++ skipped)) k → c.isGoing = true →
        c.tick.isGoing = false ∧ Q c.tick) →
      Reaches Q c lines := by
  induction hm with
  | refl m =>
    intro c before k hu hg _ hq
    rw [List.append_nil] at hq
    obtain ⟨hr, hq⟩ := hq c k hu hg
    exact (reaches_rest hr hq).of_tick hg
  | @step m m' lines xs hb hw _ ih =>
    intro c before k hu hg hf hq
    obtain ⟨hfree, hrest⟩ := Order.free_append.1 hf
    have hs := Order.free_sights.1 hfree
    rw [← List.append_assoc] at hq
    cases hu.ticked hg with
    | ends hr _ => exact absurd (back_of_finished hr) hb
    | waits hm => rw [waiting?, hm] at hw; cases hw
    | pauses hx hstop => exact absurd hstop (hs _ hx)
    | passes _ _ _ hu' hst hpr =>
      have hg' : c.tick.isGoing = true := hu'.isGoing_iff.2 ⟨hpr, by rw [hst]; exact (hu.isGoing_iff.1 hg).2⟩
      exact (ih hu' hg' hrest hq).of_tick hg
  | @answer m m' prompt line lines xs hm _ ih =>
    intro c before k hu hg hf hq
    cases hu.ticked hg with
    | ends hr _ =>
      have hb := back_of_finished hr
      rw [Back, hm] at hb
      cases hb.2
    | pauses hx =>
      obtain ⟨s, hm', -⟩ := step_of_visit hx
      rw [hm] at hm'
      cases hm'
    | passes _ hw =>
      rw [waiting?, hm] at hw
      cases hw
    | waits _ hu' hst hpr =>
      have hr : c.tick.isGoing = false := by simp [isGoing, hpr]
      obtain ⟨c', hin, hg', hu''⟩ := hu'.takes hpr (by rw [hst]; exact State.noConfusion) line
      exact ((ih hu'' hg' hf hq).of_input hr hin).of_tick hg

/-- A session that comes to a statement at which its order stops is paused there. -/
theorem Underway.tick_stops {o : Order} {before : List Sight} {m : Machine} {k : Script} {e : Entry}
    (h : c.Underway m (.of o before) k) (hg : c.isGoing = true) (hx : m.sights = [.visit e]) (hs : o.Stops before e) :
    c.tick.isGoing = false ∧ c.tick.PausedAt e m.step.1 := by
  obtain ⟨s, hm, -⟩ := step_of_visit hx
  obtain ⟨hf, hw⟩ := unrested (Or.inl hm)
  cases h.ticked hg with
  | ends hr _ =>
    rw [hf] at hr
    cases hr
  | waits hm' =>
    rw [hm] at hm'
    cases hm'
  | passes _ _ hn => exact absurd hs (hn e hx)
  | pauses hx' _ _ hp =>
    rw [hx] at hx'
    cases hx'
    exact ⟨hp.isGoing, hp⟩

/-- A session whose program has finished ends with it. -/
theorem Underway.tick_ends {o : Order} {before : List Sight} {m : Machine} {k : Script}
    {result : Except Diagnostic Value} (h : c.Underway m (.of o before) k) (hg : c.isGoing = true)
    (hf : m.finished? = some result) : c.tick.isGoing = false ∧ c.tick.Reports result := by
  have hb := back_of_finished hf
  cases h.ticked hg with
  | ends hr ho =>
    rw [hf] at hr
    cases hr
    exact ⟨ho.isGoing, ho.reports⟩
  | waits hm =>
    rw [Back, hm] at hb
    cases hb.2
  | pauses hx =>
    obtain ⟨s, hm, -⟩ := step_of_visit hx
    rw [Back, hm] at hb
    cases hb.2
  | passes hn => exact absurd hb hn

/-- **A session that is put under an order obeys it.** -/
theorem Underway.obeys {o : Order} {before : List Sight} {m : Machine} {k : Script}
    {command : Nat → Option (Except InvalidState State × Controller Script)} (h : c.Underway m (.of o before) k)
    (hg : c.isGoing = true) (hc : ∀ fuel, command fuel = c'.complete fuel (.ok c)) : Obeys o before m command := by
  have hcommand : ∀ {lines Q}, Reaches Q c lines → ∃ n state c₁ c₂, Q c₂ ∧
      ∀ fuel ≥ n, command fuel = some (.ok state, c₁) ∧ Answered fuel c₁ lines c₂ := by
    rintro lines Q ⟨n, c₁, c₂, hq, hn⟩
    refine ⟨n, c₁.state, c₁, c₂, hq, fun fuel hfuel => ?_⟩
    obtain ⟨hs, ha⟩ := hn fuel hfuel
    rw [hc, complete, hs]
    exact ⟨rfl, ha⟩
  refine ⟨?_, ?_, ?_⟩
  · intro fuel answer c₁ lines c₂ hs ha
    rw [hc] at hs
    have hs := (complete_ok hs).2
    obtain ⟨hh, hr⟩ := ((h.heeds hg).settle hs).awaited (rest_of_settle hs) ha
    exact hh.stands hr
  · intro lines skipped m' e hm hf hx hs
    exact hcommand (reaches_of_shows hm h hg hf fun c k hu hg => hu.tick_stops hg hx hs)
  · intro lines skipped m' result hm hf hfin
    exact hcommand (reaches_of_shows hm h hg hf fun c k hu hg => hu.tick_ends hg hfin)

end Reaches

/-! ## A whole session -/

section Whole

variable {m₀ : Machine} {lines : List String} {c c' : Controller Script}

/-- The session is under some order that it was put under in the course of the run from `m₀`. -/
def Ordered (m₀ : Machine) (lines : List String) (c : Controller Script) : Prop :=
  ∃ o before m earlier since, lines = earlier ++ since ∧ Shows m₀ earlier before m ∧ c.Heeds o before m since ∧
    c.isGoing = false

/-- Every command leaves the session under an order. -/
theorem Ordered.commanded (h : c.Ordered m₀ lines) {more : List String} (hc : Commanded c more c') :
    c'.Ordered m₀ (lines ++ more) := by
  obtain ⟨o, before, m, earlier, since, rfl, hm, hh, hr⟩ := h
  rcases hh.commanded hr hc with ⟨hh', hr'⟩ | ⟨rfl, mode, c₁, fuel, hres, hs⟩
  · exact ⟨o, before, m, earlier, since ++ more, List.append_assoc .., hm, hh', hr'⟩
  · obtain ⟨skipped, m', e, k, hm', hx, -, hmode⟩ := hh.paused (paused_of_resume hres)
    obtain ⟨c₂, hres₂, hg, hu⟩ := hmode mode
    cases hres.symm.trans hres₂
    refine ⟨_, _, _, earlier ++ since, [], rfl, ?_, (hu.heeds hg).settle hs, rest_of_settle hs⟩
    obtain ⟨hb, hw⟩ := unrested_of_visit hx
    have := (hm.trans hm').snoc hb hw
    rwa [hx] at this

theorem Ordered.driven (h : c.Ordered m₀ []) (hd : Driven c lines c') : c'.Ordered m₀ lines := by
  induction hd with
  | refl => exact h
  | command _ hc ih => exact ih.commanded hc

/-- A session that is started goes under its first order. -/
theorem underway_start {k : Script} {entropy : Random} {source : String} {program : Program}
    (hs : c.sink = scriptSink none) (hp : compile source = .ok program) (h : c.start source k entropy = .ok c') :
    c'.Underway ((c.config.machine c.registry entropy).begin program) (.of .first []) k ∧ c'.isGoing = true := by
  unfold start at h
  split at h
  · cases h
  · rename_i ho
    have hprompt : c.prompt = none := c.unasked (Bool.eq_false_iff.2 ho)
    rw [hp] at h
    cases h
    refine ⟨⟨hs, rfl, rfl, rfl, rfl, Or.inl hprompt, lively_begin c.registry c.config entropy program⟩, ?_⟩
    simp [isGoing, hprompt]

theorem opening_begin (registry : Registry) (config : Config) (entropy : Random) (program : Program) :
    ((config.machine registry entropy).begin program).Opening := ⟨rfl, Or.inl rfl, [], 0, program, rfl, by simp⟩

end Whole

end Controller

open Controller in
/-- **A session pauses where the rule says.** A session that is started is under the first order, which stops at every
statement; up to its first statement the program shows and reads nothing, so it pauses there before any line is asked
for. Wherever it is paused later, whatever commands it was given, that is at a statement of the trace of the program,
and the snapshot has its line, its depth and the number of the top-level statement; and any step that is ordered there
is obeyed, with the depth of that statement and the breakpoints that the view has at that moment: the session pauses
next at the first later statement at which the order stops, and if there is none it ends as the program does. -/
theorem pauses_by_rule {c : Controller Script} {k : Script} {entropy : Random} {source : String} {program : Program}
    (hs : c.sink = scriptSink none) (ho : c.isOpen = false) (hp : compile source = .ok program) :
    Obeys .first [] ((c.config.machine c.registry entropy).begin program) (fun fuel => c.debug fuel source k entropy) ∧
    (∀ lines before m e, Shows ((c.config.machine c.registry entropy).begin program) lines before m →
      (∀ x ∈ before, x.isVisit = false) → m.sights = [.visit e] → lines = [] ∧ before = []) ∧
    ∀ fuel answer c₁ lines c₂, c.debug fuel source k entropy = some (answer, c₁) → Driven c₁ lines c₂ →
      c₂.state = .paused →
      ∃ before m e, Shows ((c.config.machine c.registry entropy).begin program) lines before m ∧
        m.sights = [.visit e] ∧ c₂.PausedAt e m.step.1 ∧
        ∀ mode, Obeys ⟨mode, e.depth, c₂.breakpoints⟩ (before ++ [.visit e]) m.step.1
          (fun fuel => c₂.step fuel mode) := by
  obtain ⟨c₀, hstart⟩ : ∃ c₀, c.start source k entropy = .ok c₀ := by
    simp only [start, ho, hp]
    exact ⟨_, rfl⟩
  obtain ⟨hu, hg⟩ := underway_start hs hp hstart
  refine ⟨hu.obeys hg fun fuel => by rw [debug, hstart], ?_, ?_⟩
  · intro lines before m e hm hv _
    exact Opening.shows hm (opening_begin c.registry c.config entropy program) hv
  · intro fuel answer c₁ lines c₂ hd hdriven hpaused
    rw [debug, hstart] at hd
    have hsettle := (complete_ok hd).2
    have hord : c₁.Ordered ((c.config.machine c.registry entropy).begin program) [] :=
      ⟨_, _, _, [], [], rfl, .refl _, (hu.heeds hg).settle hsettle, rest_of_settle hsettle⟩
    obtain ⟨o, before, m, earlier, since, rfl, hm, hh, hr⟩ := hord.driven hdriven
    obtain ⟨skipped, m', e, k', hm', hx, hp', hmode⟩ := hh.paused hpaused
    refine ⟨before ++ skipped, m', e, hm.trans hm', hx, hp', fun mode => ?_⟩
    obtain ⟨c', hres, hg', hu'⟩ := hmode mode
    exact hu'.obeys hg' fun fuel => by rw [Controller.step, hres]

/-- A program that calls a function twice in one statement. -/
def callTwice : String := "function f() \x7b\n  return \"a\";\n\x7d\nf() + f();\n"

/-- The tokens of `callTwice`. -/
def callTwiceTokens : List Token :=
  [⟨.function, "function", none, ⟨0, 8, 1⟩⟩, ⟨.identifier, "f", none, ⟨9, 10, 1⟩⟩,
    ⟨.leftParen, "(", none, ⟨10, 11, 1⟩⟩, ⟨.rightParen, ")", none, ⟨11, 12, 1⟩⟩,
    ⟨.leftBrace, "\x7b", none, ⟨13, 14, 1⟩⟩, ⟨.return, "return", none, ⟨17, 23, 2⟩⟩,
    ⟨.string, "\"a\"", some (.text "a"), ⟨24, 27, 2⟩⟩, ⟨.semicolon, ";", none, ⟨27, 28, 2⟩⟩,
    ⟨.rightBrace, "\x7d", none, ⟨29, 30, 3⟩⟩, ⟨.identifier, "f", none, ⟨31, 32, 4⟩⟩,
    ⟨.leftParen, "(", none, ⟨32, 33, 4⟩⟩, ⟨.rightParen, ")", none, ⟨33, 34, 4⟩⟩, ⟨.plus, "+", none, ⟨35, 36, 4⟩⟩,
    ⟨.identifier, "f", none, ⟨37, 38, 4⟩⟩, ⟨.leftParen, "(", none, ⟨38, 39, 4⟩⟩, ⟨.rightParen, ")", none, ⟨39, 40, 4⟩⟩,
    ⟨.semicolon, ";", none, ⟨40, 41, 4⟩⟩, .eof ⟨42, 42, 5⟩]

theorem scan_callTwice : scan callTwice = .ok callTwiceTokens := by
  rw [scan_eq_scanWithin]
  rfl

/-- The tree of `callTwice`. -/
def callTwiceProgram : Program :=
  [.function "f" [] [.leave (some (.literal (.text "a") ⟨24, 27, 2⟩)) ⟨17, 28, 2⟩] ⟨0, 30, 1⟩,
    .expr (.binary .add (.call (.name "f" ⟨31, 32, 4⟩) [] ⟨31, 34, 4⟩) (.call (.name "f" ⟨37, 38, 4⟩) [] ⟨37, 40, 4⟩)
      ⟨31, 40, 4⟩) ⟨31, 41, 4⟩]

theorem compile_callTwice : compile callTwice = .ok callTwiceProgram := by
  rw [compile, scan_callTwice]
  rfl

open Controller in
/-- A session that continues to a breakpoint in a function is paused there inside one call, and obeys the step that
leads out of it. -/
theorem pauses_by_rule_callTwice :
    ∃ (c₁ c₂ : Controller Script) (before : List Sight) (m : Machine) (e : Entry),
      (Controller.new .empty .default (scriptSink none) [2]).debug 9 callTwice (.ofInputs []) =
        some (.ok .paused, c₁) ∧
      c₁.step 20 .onward = some (.ok .paused, c₂) ∧ c₂.PausedAt e m.step.1 ∧ e = ⟨2, 1, 1⟩ ∧
      Obeys ⟨.out, 1, [2]⟩ (before ++ [.visit e]) m.step.1 (fun fuel => c₂.step fuel .out) := by
  let c : Controller Script := .new .empty .default (scriptSink none) [2]
  have h : ((c.debug 9 callTwice (.ofInputs [])).bind fun r₁ => (r₁.2.step 20 .onward).map fun r₂ =>
      (r₁.1.toOption, r₂.1.toOption, r₂.2.state,
        r₂.2.snapshot.map fun s => s.line :: s.callDepth :: s.cursor :: r₂.2.breakpoints)) =
      some (some .paused, some .paused, .paused, some [2, 1, 1, 2]) := by
    rw [debug, start, compile_callTwice]
    decide +kernel
  simp only [Option.bind_eq_some_iff, Option.map_eq_some_iff, Prod.mk.injEq, List.cons.injEq] at h
  obtain ⟨⟨a₁, c₁⟩, h₁, ⟨a₂, c₂⟩, h₂, ha₁, ha₂, hstate, s, hs, hline, hdepth, hcursor, hbreak⟩ := h
  cases a₁ with
  | error e => cases ha₁
  | ok state₁ =>
    cases a₂ with
    | error e => cases ha₂
    | ok state₂ =>
      cases ha₁
      cases ha₂
      obtain ⟨before, m, e, -, -, hp, ho⟩ := (pauses_by_rule (k := .ofInputs []) rfl rfl compile_callTwice).2.2
        9 _ c₁ [] c₂ h₁ ((Driven.refl c₁).command (.step .onward h₂)) hstate
      obtain ⟨s', hs', hl, hd, hc⟩ := hp.snapshot
      cases hs.symm.trans hs'
      have he : e = ⟨2, 1, 1⟩ := by
        obtain ⟨line, depth, cursor⟩ := e
        dsimp only at hl hd hc
        rw [← hl, ← hd, ← hc, hline, hdepth, hcursor]
      have hout := ho .out
      rw [hbreak, he] at hout
      exact ⟨c₁, c₂, before, m, e, h₁, h₂, hp, he, by rw [he]; exact hout⟩

end StepScript.Debugger
