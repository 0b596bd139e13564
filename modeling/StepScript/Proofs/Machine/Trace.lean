import StepScript.Proofs.Machine.Shift

/-!
# The trace of a run

The trace of a run is the sequence of the statements that it announces, each with its line, the depth of calls and the
number of the top-level statement, and a mark wherever a loop starts its body (`Sight`).

`Shows m lines trace m'` says that the run from `m`, with nobody interfering and with `lines` read in order, comes to
`m'` and shows `trace` on the way.

* A statement shows when it is announced and a loop when it starts its body; no other step shows anything
  (`sights_cases`). An expression shows nothing outside the calls that it makes (`depth_of_expression`).
* Up to its first statement a program shows and reads nothing (`Opening.shows`).
-/

namespace StepScript

/-- A statement that was announced. -/
structure Entry where
  line : Nat
  /-- How many calls are in progress. -/
  depth : Nat
  /-- The number of the top-level statement being carried out. -/
  cursor : Nat
deriving DecidableEq

/-- What a trace is made of. -/
inductive Sight where
  | visit (e : Entry)
  /-- A loop starts its body, at a depth of calls. -/
  | lap (depth : Nat)
deriving DecidableEq

namespace Sight

/-- Whether it is a statement. -/
def isVisit : Sight → Bool
  | visit _ => true
  | lap _ => false

/-- How many calls are in progress. -/
def depth : Sight → Nat
  | visit e => e.depth
  | lap depth => depth

end Sight

/-- What an event adds to the trace, from the machine after it. -/
def Event.sight? (m : Machine) : Event → Option Sight
  | visit line => some (.visit ⟨line, m.depth, m.cursor⟩)
  | lap => some (.lap m.depth)
  | _ => none

namespace Machine

/-- What the next step adds to the trace. -/
def sights (m : Machine) : List Sight := (m.step.2.bind (Event.sight? m.step.1)).toList

/-- The run from `m`, reading `lines`, comes to `m'` and shows a trace on the way. -/
inductive Shows : Machine → List String → List Sight → Machine → Prop
  | refl (m : Machine) : Shows m [] [] m
  | step {m m' : Machine} {lines : List String} {xs : List Sight} : ¬m.Back [] → m.waiting? = none →
      Shows m.step.1 lines xs m' → Shows m lines (m.sights ++ xs) m'
  | answer {m m' : Machine} {prompt line : String} {lines : List String} {xs : List Sight} :
      m.focus = .await prompt → Shows (m.answer (.line line)) lines xs m' → Shows m (line :: lines) xs m'

/-! ## Which steps show -/

section Sights

variable {m : Machine}

/-- A machine that is to announce or carry out a statement has a step to make. -/
theorem unrested {s : Stmt} (hm : m.focus = .start s ∨ m.focus = .exec s) :
    m.finished? = none ∧ m.waiting? = none := by
  constructor
  · unfold finished?
    split <;> simp_all
  · unfold waiting?
    rcases hm with hm | hm <;> rw [hm]

/-- Builtins write, clear and ask: they show nothing of the way. -/
theorem sight?_takeAnswer (span : Span) (a : Answer) (m' : Machine) :
    (m.takeAnswer span a).2.bind (Event.sight? m') = none := by
  cases a <;> rfl

theorem sight?_applyValue (callee : Value) (args : List Value) (span : Span) (m' : Machine) :
    (m.applyValue callee args span).2.bind (Event.sight? m') = none := by
  unfold applyValue
  split
  · split
    · split
      · exact sight?_takeAnswer span _ m'
      · rfl
    · exact sight?_takeAnswer span _ m'
  · split
    · rfl
    · split <;> rfl
  · rfl

/-- Of all work that takes a value, only the test of a loop shows. -/
theorem sight?_takeValue (v : Value) {w : Pending} (hw : ∀ condition body, w ≠ .test condition body) (m' : Machine) :
    (m.takeValue v w).2.bind (Event.sight? m') = none := by
  cases w with
  | test condition body => exact absurd rfl (hw condition body)
  | discard | logical | setValue =>
    simp only [takeValue]
    split <;> rfl
  | choose yes no =>
    simp only [takeValue]
    split
    · rfl
    · split <;> rfl
  | write newline => cases newline <;> rfl
  | callee args span => cases args <;> rfl
  | argument callee before rest span => cases rest <;> rfl
  | item before rest => cases rest <;> rfl
  | setProperty | setObject => cases v <;> rfl
  | _ => rfl

/-- **What a step shows**: nothing, the statement that it announces, or that a loop starts its body. -/
theorem sights_cases (m : Machine) :
    m.sights = [] ∨
    (∃ s, m.focus = .start s ∧ s.isBlock = false ∧ m.sights = [.visit ⟨s.line, m.depth, m.cursor⟩] ∧
      m.step = (m.turn (.exec s), some (.visit s.line))) ∨
    ∃ v condition body rest, m.focus = .give v ∧ m.pending = .test condition body :: rest ∧
      m.sights = [.lap m.depth] ∧
      m.step = ({ m with focus := .start body, pending := .again condition body :: rest }, some .lap) := by
  have hnone : ∀ {r : Machine × Option Event}, m.step = r → r.2.bind (Event.sight? r.1) = none → m.sights = [] := by
    intro r hr hn
    rw [sights, hr, hn]
    rfl
  cases hm : m.focus with
  | start s =>
    by_cases hstop : m.stopped = true
    · exact Or.inl (by simp only [sights, step, hm, startStatement, hstop]; rfl)
    · by_cases hb : s.isBlock = true
      · exact Or.inl (by simp only [sights, step, hm, startStatement, hstop, hb]; rfl)
      · have hs : m.step = (m.turn (.exec s), some (.visit s.line)) := by
          simp only [step, hm, startStatement, hstop, hb]
          rfl
        refine Or.inr (Or.inl ⟨s, rfl, by simpa using hb, ?_, hs⟩)
        rw [sights, hs]
        rfl
  | exec | eval | await => exact Or.inl (by simp only [sights, step, hm]; rfl)
  | apply callee args span =>
    have hs : m.step = m.applyValue callee args span := by simp only [step, hm]
    exact Or.inl (hnone hs (sight?_applyValue callee args span _))
  | give v =>
    cases hp : m.pending with
    | nil => exact Or.inl (by simp only [sights, step, hm, hp]; rfl)
    | cons w rest =>
      by_cases hw : ∃ condition body, w = .test condition body
      · obtain ⟨condition, body, rfl⟩ := hw
        have hs := step_give hm hp
        simp only [takeValue] at hs
        split at hs
        · refine Or.inr (Or.inr ⟨v, condition, body, rest, rfl, rfl, ?_, hs⟩)
          rw [sights, hs]
          rfl
        · exact Or.inl (hnone hs rfl)
      · exact Or.inl (hnone (step_give hm hp) (sight?_takeValue v (fun c b h => hw ⟨c, b, h⟩) _))
  | done | leave | fail => cases hp : m.pending <;> exact Or.inl (by simp only [sights, step, hm, hp]; rfl)

/-- A statement that shows is held before it is carried out. -/
theorem step_of_visit {e : Entry} (h : m.sights = [.visit e]) :
    ∃ s, m.focus = .start s ∧ s.isBlock = false ∧ e = ⟨s.line, m.depth, m.cursor⟩ ∧
      m.step = (m.turn (.exec s), some (.visit e.line)) := by
  rcases sights_cases m with h' | ⟨s, hm, hb, h', hs⟩ | ⟨v, condition, body, rest, -, -, h', -⟩
  · rw [h] at h'
    cases h'
  · rw [h] at h'
    cases h'
    exact ⟨s, hm, hb, rfl, hs⟩
  · rw [h] at h'
    cases h'

/-- A machine that is about to announce a statement is neither at its end nor waiting. -/
theorem unrested_of_visit {e : Entry} (h : m.sights = [.visit e]) : ¬m.Back [] ∧ m.waiting? = none := by
  obtain ⟨s, hm, -⟩ := step_of_visit h
  refine ⟨?_, (unrested (Or.inl hm)).2⟩
  intro hb
  rw [Back, hm] at hb
  cases hb.2

/-- A step without an event shows nothing. -/
theorem sights_of_silent {m' : Machine} (h : m.step = (m', none)) : m.sights = [] := by
  rw [sights, h]
  rfl

/-- Nothing shows once the work is at its end. -/
theorem sights_of_back (h : m.Back []) : m.sights = [] := by
  rcases sights_cases m with h' | ⟨s, hm, -⟩ | ⟨v, condition, body, rest, -, hp, -⟩
  · exact h'
  · rw [Back, hm] at h
    cases h.2
  · rw [Back, hp] at h
    cases h.1

/-- Nothing shows while the machine waits for a line. -/
theorem sights_of_await {prompt : String} (h : m.focus = .await prompt) : m.sights = [] := by
  simp only [sights, step, h]
  rfl

/-- A machine that neither comes to a statement nor tests the condition of a loop shows nothing. -/
theorem sights_eq_nil (hs : ∀ s, m.focus ≠ .start s)
    (ht : ∀ condition body rest, m.pending ≠ .test condition body :: rest) : m.sights = [] := by
  rcases sights_cases m with h | ⟨s, hm, -⟩ | ⟨v, condition, body, rest, -, hp, -⟩
  · exact h
  · exact absurd hm (hs s)
  · exact absurd hp (ht condition body rest)

/-- At most one thing shows in a step. -/
theorem eq_of_mem_sights {x : Sight} (h : x ∈ m.sights) : m.sights = [x] := by
  rcases sights_cases m with h' | ⟨s, -, -, h', -⟩ | ⟨v, condition, body, rest, -, -, h', -⟩
  · rw [h'] at h
    cases h
  · rw [h'] at h ⊢
    rw [List.mem_singleton.1 h]
  · rw [h'] at h ⊢
    rw [List.mem_singleton.1 h]

/-- The depth of what shows is the depth before and after the step. -/
theorem depth_of_mem_sights {x : Sight} (h : x ∈ m.sights) : x.depth = m.depth ∧ m.step.1.depth = m.depth := by
  rcases sights_cases m with h' | ⟨s, -, -, h', hs⟩ | ⟨v, condition, body, rest, -, -, h', hs⟩
  · rw [h'] at h
    cases h
  · rw [h'] at h
    rw [List.mem_singleton.1 h, hs]
    exact ⟨rfl, rfl⟩
  · rw [h'] at h
    rw [List.mem_singleton.1 h, hs]
    exact ⟨rfl, rfl⟩

end Sights

/-! ## Expressions -/

section Expressions

variable {base : List Pending} {home : Place} {m : Machine}

/-- Between a statement and the value that it is a part of there is a call, or a program. -/
theorem exists_call_of_yields {ws : List Pending} (h : Yields (some .statement) ws .value)
    (hn : ∀ w ∈ ws, w.isProgram = false) : 0 < ws.countP Pending.isCall := by
  induction ws with
  | nil => cases h
  | cons w ws ih =>
    obtain ⟨hw, hrest⟩ := h
    obtain ⟨hp, hmore⟩ := List.forall_mem_cons.1 hn
    rw [List.countP_cons]
    cases w with
    | block | again => exact Nat.add_pos_left (ih hrest hmore) _
    | call => exact Nat.succ_pos _
    | program => cases hp
    | _ => cases hw

/-- **An expression shows nothing outside the calls that it makes.** -/
theorem depth_of_expression (hw : Working base home .value m) (ht : Tallied base 0 m) (hb : ¬m.Back base) {x : Sight}
    (hx : x ∈ m.sights) : x.depth ≠ 0 := by
  obtain ⟨inner, hi, hy, -⟩ := hw
  obtain ⟨inner', hi', hd, hn⟩ := ht
  have he : inner' = inner := List.append_cancel_right (hi'.symm.trans hi)
  rw [he] at hd hn
  rw [(depth_of_mem_sights hx).1, hd, Nat.zero_add, ← Nat.pos_iff_ne_zero]
  rcases sights_cases m with h | ⟨s, hm, -⟩ | ⟨v, condition, body, rest, hm, hp, -⟩
  · rw [h] at hx
    cases hx
  · rw [hm] at hy
    exact exists_call_of_yields hy hn
  · rw [hm] at hy
    cases inner with
    | nil => exact absurd ⟨hi, by rw [hm]; rfl⟩ hb
    | cons w inner =>
      rw [hi] at hp
      cases hp
      rw [List.countP_cons]
      exact Nat.add_pos_left (exists_call_of_yields hy.2 (List.forall_mem_cons.1 hn).2) _

end Expressions

/-! ## Runs with their traces -/

section Shows

variable {m m' m'' : Machine} {lines more : List String} {xs ys : List Sight}

theorem Shows.trans (h : Shows m lines xs m') (h' : Shows m' more ys m'') :
    Shows m (lines ++ more) (xs ++ ys) m'' := by
  induction h with
  | refl => exact h'
  | step hb hw _ ih =>
    rw [List.append_assoc]
    exact .step hb hw (ih h')
  | answer hm _ ih => exact .answer hm (ih h')

theorem Shows.snoc (h : Shows m lines xs m') (hb : ¬m'.Back []) (hw : m'.waiting? = none) :
    Shows m lines (xs ++ m'.sights) m'.step.1 := by
  have := h.trans (.step hb hw (.refl m'.step.1))
  rwa [List.append_nil, List.append_nil] at this

theorem Shows.snoc_answer (h : Shows m lines xs m') {prompt : String} (hm : m'.focus = .await prompt)
    (line : String) : Shows m (lines ++ [line]) xs (m'.answer (.line line)) := by
  have := h.trans (.answer hm (.refl (m'.answer (.line line))))
  rwa [List.append_nil] at this

end Shows

/-! ## How a program opens -/

/-- The program has come to no statement yet, only to blocks. -/
structure Opening (m : Machine) : Prop where
  unstopped : m.stopped = false
  focus : m.focus = .done ∨ (∃ s, m.focus = .start s) ∨ ∃ body span, m.focus = .exec (.block body span)
  pending : ∃ blocks index rest, m.pending = blocks ++ [.program index rest] ∧
    ∀ w ∈ blocks, ∃ outer more, w = .block outer more

section Opening

variable {m m' : Machine} {lines : List String} {before : List Sight}

/-- A step of a program that opens comes to a statement, enters or leaves a block, or ends the program. -/
theorem Opening.step (h : m.Opening) :
    (∃ e, m.sights = [.visit e]) ∨ m.sights = [] ∧ (m.step.1.Opening ∨ m.step.1.Back []) := by
  obtain ⟨hs, hm, blocks, index, rest, hp, hblocks⟩ := h
  rcases hm with hm | ⟨s, hm⟩ | ⟨body, span, hm⟩
  · refine Or.inr ?_
    cases blocks with
    | nil =>
      have hstep := step_done hm hp
      refine ⟨sights_of_silent hstep, ?_⟩
      rw [hstep]
      cases rest with
      | nil => exact Or.inr ⟨rfl, rfl⟩
      | cons s rest => exact Or.inl ⟨hs, Or.inr (Or.inl ⟨s, rfl⟩), [], index + 1, rest, rfl, hblocks⟩
    | cons w blocks =>
      obtain ⟨outer, more, rfl⟩ := hblocks w (by simp)
      have hb : ∀ w ∈ blocks, ∃ outer more, w = .block outer more := fun w hw => hblocks w (by simp [hw])
      have hstep := step_done hm hp
      refine ⟨sights_of_silent hstep, Or.inl ?_⟩
      rw [hstep]
      cases more with
      | nil => exact ⟨hs, Or.inl hm, blocks, index, rest, rfl, hb⟩
      | cons s more =>
        refine ⟨hs, Or.inr (Or.inl ⟨s, rfl⟩), .block outer more :: blocks, index, rest, rfl, ?_⟩
        intro w hw
        rcases List.mem_cons.1 hw with rfl | hw
        · exact ⟨outer, more, rfl⟩
        · exact hb w hw
  · cases hb : s.isBlock with
    | false =>
      refine Or.inl ⟨⟨s.line, m.depth, m.cursor⟩, ?_⟩
      simp only [sights, Machine.step, hm, startStatement, hs, hb]
      rfl
    | true =>
      have hstep : m.step = (m.turn (.exec s), none) := by
        simp only [Machine.step, hm, startStatement, hs, hb]
        rfl
      refine Or.inr ⟨sights_of_silent hstep, Or.inl ?_⟩
      rw [hstep]
      cases s with
      | block body span => exact ⟨hs, Or.inr (Or.inr ⟨body, span, rfl⟩), blocks, index, rest, hp, hblocks⟩
      | _ => cases hb
  · have hstep : m.step = (m.execStatement (.block body span), none) := by simp only [Machine.step, hm]
    refine Or.inr ⟨sights_of_silent hstep, Or.inl ?_⟩
    rw [hstep]
    refine ⟨hs, Or.inl rfl, .block m.here body :: blocks, index, rest, by rw [List.cons_append, ← hp]; rfl, ?_⟩
    intro w hw
    rcases List.mem_cons.1 hw with rfl | hw
    · exact ⟨m.here, body, rfl⟩
    · exact hblocks w hw

/-- **Up to its first statement a program shows and reads nothing.** -/
theorem Opening.shows (hm : Shows m lines before m') (h : m.Opening) (hv : ∀ x ∈ before, x.isVisit = false) :
    lines = [] ∧ before = [] := by
  induction hm with
  | refl => exact ⟨rfl, rfl⟩
  | @step m _ _ xs _ _ hrest ih =>
    rcases h.step with ⟨e, he⟩ | ⟨hx, ho | hb⟩
    · cases hv (.visit e) (by simp [he])
    · rw [hx, List.nil_append] at hv ⊢
      exact ih ho hv
    · rw [hx, List.nil_append]
      cases hrest with
      | refl => exact ⟨rfl, rfl⟩
      | step hn => exact absurd hb hn
      | answer hw =>
        rw [Back, hw] at hb
        cases hb.2
  | answer hw =>
    rcases h.focus with hm | ⟨s, hm⟩ | ⟨body, span, hm⟩ <;> rw [hm] at hw <;> cases hw

end Opening

end Machine

end StepScript
