import StepScript.Proofs.Debugger.Onward

/-!
# Breakpoints inside functions

An activation of a function runs from the moment when it is entered until the number of calls falls back. Its own
statements are those at its depth. In a session that is only resumed, an activation that comes to a line with a
breakpoint pauses there, unless the statement before the activation was on that line at the same depth, in an earlier
call, and the activation never comes back to the line once it has left it: the stepper remembers one line and one depth
and does not see that they belong to another call. `breakpoint_pauses_iff` says exactly when it pauses.
-/

namespace StepScript.Debugger

open Machine

/-- All statements on a line at a depth come at once, before everything else. -/
def Lingers (line depth : Nat) (xs : List (Sight × Bool)) : Prop :=
  ∃ own rest, xs = own ++ rest ∧ (∀ y ∈ own, IsAt line depth y.1 = true) ∧ ∀ y ∈ rest, IsAt line depth y.1 = false

section Traces

variable {line depth : Nat} {trace : List Sight} {xs : List (Sight × Bool)}

theorem lingers_of_none (h : ∀ y ∈ xs, IsAt line depth y.1 = false) : Lingers line depth xs :=
  ⟨[], xs, rfl, by simp, h⟩

theorem lingers_cons_at {y : Sight × Bool} (hy : IsAt line depth y.1 = true) :
    Lingers line depth (y :: xs) ↔ Lingers line depth xs := by
  constructor
  · rintro ⟨own, rest, h, hown, hrest⟩
    cases own with
    | nil =>
      have := hrest y (by rw [← (List.nil_append rest), ← h]; simp)
      rw [hy] at this
      cases this
    | cons z own =>
      obtain ⟨rfl, rfl⟩ := List.cons.inj h
      exact ⟨own, rest, rfl, fun z hz => hown z (by simp [hz]), hrest⟩
  · rintro ⟨own, rest, rfl, hown, hrest⟩
    refine ⟨y :: own, rest, rfl, ?_, hrest⟩
    intro z hz
    rcases List.mem_cons.1 hz with rfl | hz
    · exact hy
    · exact hown z hz

theorem none_of_lingers {y : Sight × Bool} (hy : IsAt line depth y.1 = false) (h : Lingers line depth (y :: xs)) :
    ∀ z ∈ xs, IsAt line depth z.1 = false := by
  obtain ⟨own, rest, h, hown, hrest⟩ := h
  cases own with
  | nil =>
    intro z hz
    exact hrest z (by rw [← (List.nil_append rest), ← h]; simp [hz])
  | cons z own =>
    obtain ⟨rfl, -⟩ := List.cons.inj h
    rw [hown y (by simp)] at hy
    cases hy

/-- **Where a session pauses on a line at a depth**: at some statement there, unless the trace before ends there and the
statements come at once. -/
theorem Marked.pauses_iff (h : Marked line trace xs) :
    (∃ y ∈ xs, IsAt line depth y.1 = true ∧ y.2 = true) ↔
      (∃ y ∈ xs, IsAt line depth y.1 = true) ∧ ¬(latest trace = some (line, depth) ∧ Lingers line depth xs) := by
  induction xs generalizing trace with
  | nil => simp
  | cons y xs ih =>
    obtain ⟨x, paused⟩ := y
    obtain ⟨hx, hrest⟩ := h
    have ih := ih hrest
    rw [latest_append_one] at ih
    by_cases hat : IsAt line depth x = true
    · obtain ⟨e, rfl, he, hd⟩ := isAt_iff.1 hat
      have hflag := hx e rfl he
      rw [arrives_iff, he, hd] at hflag
      by_cases hl : latest trace = some (line, depth)
      · -- the statement is no arrival: a pause can only come later
        have hpaused : paused = false := by simpa [hl] using hflag
        have hvisits : ¬Lingers line depth xs → ∃ y ∈ xs, IsAt line depth y.1 = true := by
          intro hn
          refine Classical.byContradiction fun hv => hn (lingers_of_none fun y hy => ?_)
          exact Bool.eq_false_iff.2 fun hy' => hv ⟨y, hy, hy'⟩
        simp only [hat, true_and] at ih
        simp only [List.mem_cons, exists_eq_or_imp, hat, hpaused, hl, true_and, Bool.false_eq_true, and_false, false_or,
          true_or, ih, lingers_cons_at (y := (.visit e, false)) hat, and_iff_right_iff_imp]
        exact hvisits
      · have hpaused : paused = true := hflag.2 hl
        simp [hat, hpaused, hl]
    · simp only [Bool.not_eq_true] at hat
      simp only [hat, Bool.false_eq_true, false_and, not_false_eq_true, and_true] at ih
      simp only [List.mem_cons, exists_eq_or_imp, hat, Bool.false_eq_true, false_and, false_or, ih]
      refine ⟨fun hv => ⟨hv, ?_⟩, And.left⟩
      rintro ⟨-, hling⟩
      obtain ⟨y, hy, hy'⟩ := hv
      rw [none_of_lingers (y := (x, paused)) hat hling y hy] at hy'
      cases hy'

end Traces

/-- Whether a machine is about to call a function. -/
def IsCalling (m : Machine) : Bool :=
  match m.focus with
  | .apply (.closure _) _ _ => true
  | _ => false

/-- An activation of a function: the session is about to enter it from inside `depth` calls, and all through the acts
that follow it is inside more. -/
structure Activation (depth : Nat) (c : Controller Script) (acts : List Act) : Prop where
  going : c.isGoing = true
  called : c.live.any (fun live => IsCalling live.machine && live.machine.depth == depth) = true
  inside : (c.act .tick).during (depth < ·.depth) acts = true

section Activation

variable {c : Controller Script} {depth : Nat} {acts : List Act}

/-- All that an activation shows is inside it. -/
theorem Activation.depth_lt (h : Activation depth c acts) {y : Sight × Bool} (hy : y ∈ c.noted (.tick :: acts)) :
    depth < y.1.depth := by
  rcases List.mem_append.1 hy with hy | hy
  · -- the step that enters the function shows nothing
    obtain ⟨live, hl, hx⟩ := Controller.mem_notes hy
    have hcalled := h.called
    simp only [hl, Option.any_some, Bool.and_eq_true, IsCalling] at hcalled
    rcases sights_cases live.machine with hn | ⟨s, hm, -⟩ | ⟨v, condition, body, rest, hm, -⟩
    · rw [hn] at hx
      cases hx
    · rw [hm] at hcalled
      cases hcalled.1
    · rw [hm] at hcalled
      cases hcalled.1
  · obtain ⟨m, hm, hx⟩ := Controller.mem_noted h.inside hy
    rw [(depth_of_mem_sights hx).1]
    simpa using hm

end Activation

open Controller in
/-- **When a breakpoint inside a function pauses.** In a session that is only resumed, with a breakpoint kept on a line,
all that an activation shows is at its depth or deeper; and it pauses at a statement of its own on the line exactly if
it has one, except where the trace before it ends on the line at its depth, which was in another call, and its
statements on the line come at once before all else: then it is taken for a part of that other call. -/
theorem breakpoint_pauses_iff {c c₁ : Controller Script} {k : Script} {entropy : Random} {source : String}
    {program : Program} {line depth : Nat} {earlier acts : List Act} (hs : c.sink = scriptSink none)
    (hp : compile source = .ok program) (hst : c.start source k entropy = .ok c₁) (hl : line ∈ c.breakpoints)
    (hk : ∀ a ∈ earlier ++ acts, a.keeps line = true) (ha : Activation depth (c₁.after earlier) acts) :
    (∀ y ∈ (c₁.after earlier).noted (.tick :: acts), depth < y.1.depth) ∧
    ((∃ y ∈ (c₁.after earlier).noted (.tick :: acts), IsAt line (depth + 1) y.1 = true ∧ y.2 = true) ↔
      (∃ y ∈ (c₁.after earlier).noted (.tick :: acts), IsAt line (depth + 1) y.1 = true) ∧
        ¬(latest ((c₁.noted earlier).map Prod.fst) = some (line, depth + 1) ∧
          Lingers line (depth + 1) ((c₁.after earlier).noted (.tick :: acts)))) := by
  have hearlier : ∀ a ∈ earlier, a.keeps line = true := fun a h => hk a (List.mem_append_left acts h)
  have hacts : ∀ a ∈ Act.tick :: acts, a.keeps line = true := by
    intro a h
    rcases List.mem_cons.1 h with rfl | h
    · rfl
    · exact hk a (List.mem_append_right earlier h)
  obtain ⟨-, hkept⟩ := (kept_start hs hp hst hl).noted hearlier
  rw [List.nil_append] at hkept
  exact ⟨fun y hy => ha.depth_lt hy, (hkept.noted hacts).1.pauses_iff⟩

/-- The acts that lead a session of `callTwice`, with a breakpoint on line 2, to its first call. -/
def toFirstCall : List Act := List.replicate 2 .tick ++ [.resume] ++ List.replicate 8 .tick

open Controller in
/-- The first of two calls in one statement pauses. -/
theorem breakpoint_pauses_iff_firstCall :
    ∃ c₁ : Controller Script,
      (Controller.new .empty .default (scriptSink none) [2]).start callTwice (.ofInputs []) (.ofSeed 0) = .ok c₁ ∧
      Activation 0 (c₁.after toFirstCall) (List.replicate 2 .tick) ∧
      ∃ y ∈ (c₁.after toFirstCall).noted (List.replicate 3 .tick), IsAt 2 1 y.1 = true ∧ y.2 = true := by
  obtain ⟨c₁, hst, ha, hv, hl⟩ : ∃ c₁ : Controller Script,
      (Controller.new .empty .default (scriptSink none) [2]).start callTwice (.ofInputs []) (.ofSeed 0) = .ok c₁ ∧
      Activation 0 (c₁.after toFirstCall) (List.replicate 2 .tick) ∧
      ((c₁.after toFirstCall).noted (List.replicate 3 .tick)).any (IsAt 2 1 ·.1) = true ∧
      latest ((c₁.noted toFirstCall).map Prod.fst) ≠ some (2, 1) := by
    refine ⟨_, by rw [start, compile_callTwice]; rfl, ⟨?_, ?_, ?_⟩, ?_, ?_⟩ <;> decide +kernel
  refine ⟨c₁, hst, ha, ?_⟩
  refine (breakpoint_pauses_iff rfl compile_callTwice hst (by decide) (by decide) ha).2.2 ⟨?_, fun h => hl h.1⟩
  simpa using hv

/-- The acts that lead a session of `callTwice`, with a breakpoint on line 2, to its second call: it pauses at the first
statement and inside the first call. -/
def toSecondCall : List Act :=
  List.replicate 2 .tick ++ [.resume] ++ List.replicate 11 .tick ++ [.resume] ++ List.replicate 8 .tick

open Controller in
/-- **The second of two calls in one statement does not pause**: it comes to line 2, which has a breakpoint all the
time, and is carried through to its end without a pause. -/
theorem second_call_missed :
    ∃ c₁ : Controller Script,
      (Controller.new .empty .default (scriptSink none) [2]).start callTwice (.ofInputs []) (.ofSeed 0) = .ok c₁ ∧
      (∀ a ∈ toSecondCall ++ List.replicate 5 .tick, a.keeps 2 = true) ∧
      Activation 0 (c₁.after toSecondCall) (List.replicate 5 .tick) ∧
      (c₁.after (toSecondCall ++ List.replicate 7 .tick)).live.map (·.machine.depth) = some 0 ∧
      (c₁.after toSecondCall).noted (List.replicate 6 .tick) = [(.visit ⟨2, 1, 1⟩, false)] := by
  refine ⟨_, by rw [start, compile_callTwice]; rfl, by decide, ⟨?_, ?_, ?_⟩, ?_, ?_⟩
  · decide +kernel
  · decide +kernel
  · decide +kernel
  · decide +kernel
  · decide +kernel

end StepScript.Debugger
