import StepScript.Proofs.Debugger.Onward
import StepScript.Proofs.Machine.Bodies

/-!
# Breakpoints inside loops

The subject is a top-level loop whose body has all its statements on one line (`LineLoop`), in a program with no
function that has a statement there. While the loop runs, its trace is made of the starts of its passes, of statements
on the line, and of what the calls show that its expressions make (`Stage.Runs`): the machine goes through the phases of
a pass (`LineLoop.Phase`), and one step leads from phase to phase and shows nothing else (`Phase.step`).

A session that is only resumed, with a breakpoint on the line, pauses once in each pass, and once more for each
statement on the line that comes right after something deeper (`loop_pauses_eq`): the call has overwritten the one line
and depth that the stepper remembers, and what follows it on the line is taken for a new arrival.
-/

namespace StepScript.Debugger

open Machine

/-! ## What a loop shows -/

/-- Whether it is a statement on a line. -/
def IsOn (line : Nat) : Sight → Bool
  | .visit e => e.line == line
  | .lap _ => false

/-- How far a loop has come. -/
inductive Stage where
  /-- No pass has begun. -/
  | ahead
  /-- A pass has begun, and none of its statements has been announced. -/
  | fresh
  /-- A statement of the latest pass has been announced. -/
  | within
deriving DecidableEq

namespace Stage

/-- What may show at a stage of a loop with its body on a line, and the stage after it. -/
inductive Next (line : Nat) : Stage → Sight → Stage → Prop
  | lap {s : Stage} : s ≠ .fresh → Next line s (.lap 0) .fresh
  | own {s : Stage} {e : Entry} : s ≠ .ahead → e.line = line → e.depth = 0 → Next line s (.visit e) .within
  | deeper {s : Stage} {x : Sight} : s ≠ .fresh → x.depth ≠ 0 → IsOn line x = false → Next line s x s

/-- A trace leads from one stage of a loop to another. -/
inductive Runs (line : Nat) : Stage → List Sight → Stage → Prop
  | refl (s : Stage) : Runs line s [] s
  | next {s s' s'' : Stage} {x : Sight} {xs : List Sight} : Next line s x s' → Runs line s' xs s'' →
      Runs line s (x :: xs) s''

/-- What the trace may end with at a stage. -/
def EndsWith (line : Nat) : Stage → Sight → Prop
  | ahead, x => x.depth ≠ 0
  | fresh, x => x = .lap 0
  | within, x => IsAt line 0 x = true ∨ x.depth ≠ 0

section Runs

variable {line : Nat} {s s' s'' : Stage} {x : Sight} {xs ys : List Sight}

theorem Next.endsWith (h : Next line s x s') : s'.EndsWith line x := by
  cases h with
  | lap => rfl
  | own _ he hd => exact Or.inl (isAt_iff.2 ⟨_, rfl, he, hd⟩)
  | deeper hs hd =>
    cases s with
    | ahead => exact hd
    | fresh => exact absurd rfl hs
    | within => exact Or.inr hd

theorem Runs.append (h : Runs line s xs s') (h' : Runs line s' ys s'') : Runs line s (xs ++ ys) s'' := by
  induction h with
  | refl => exact h'
  | next hn _ ih => exact .next hn (ih h')

/-- A pass that has just begun was the last to show. -/
theorem Runs.ends_fresh (h : Runs line s xs s') (hs : s' = .fresh) :
    s = .fresh ∧ xs = [] ∨ ∃ ys, xs = ys ++ [.lap 0] := by
  induction h with
  | refl => exact Or.inl ⟨hs, rfl⟩
  | @next _ _ _ x _ hn _ ih =>
    rcases ih hs with ⟨rfl, rfl⟩ | ⟨ys, rfl⟩
    · cases hn with
      | lap => exact Or.inr ⟨[], rfl⟩
      | deeper hs => exact absurd rfl hs
    · exact Or.inr ⟨x :: ys, rfl⟩

end Runs

end Stage

/-! ## Counting pauses -/

/-- How many passes of a top-level loop a trace begins. -/
def passes (trace : List Sight) : Nat := trace.count (.lap 0)

/-- How often a session paused on a line. -/
def pausesOn (line : Nat) (notes : List (Sight × Bool)) : Nat := notes.countP fun y => y.2 && IsOn line y.1

/-- How many statements on a line, outside all calls, come right after something inside a call. -/
def returns (line : Nat) : List Sight → Nat
  | x :: y :: rest => (if x.depth ≠ 0 ∧ IsAt line 0 y = true then 1 else 0) + returns line (y :: rest)
  | _ => 0

section Counting

variable {line : Nat} {s s' : Stage} {x : Sight} {older : List Sight} {notes : List (Sight × Bool)}

theorem isAt_of_depth {depth : Nat} (h : x.depth ≠ depth) : IsAt line depth x = false := by
  cases x with
  | visit e =>
    have h : e.depth ≠ depth := h
    simp [IsAt, h]
  | lap d => rfl

theorem pausesOn_cons (y : Sight × Bool) :
    pausesOn line (y :: notes) = pausesOn line notes + (if y.2 && IsOn line y.1 then 1 else 0) := List.countP_cons

theorem passes_cons (x : Sight) (xs : List Sight) : passes (x :: xs) = passes xs + (if x = .lap 0 then 1 else 0) := by
  simp [passes, List.count_cons]

/-- A statement on the line pauses unless the one before it was there as well. -/
theorem paused_iff {e : Entry} {paused : Bool} (he : e.line = line) (hd : e.depth = 0)
    (hm : Marked line (older ++ [x]) ((.visit e, paused) :: notes)) : paused = !IsAt line 0 x := by
  have h := hm.1 e rfl he
  rw [arrives_iff, he, hd, Ne, latest_append_one] at h
  cases paused <;> simpa using h

/-- **The pauses of a loop**, from a moment on: each pass that began has its pause once a statement of it is announced,
and each return to the line has one. -/
theorem Stage.Runs.pauses (hr : Runs line s (notes.map Prod.fst) s') (hx : s.EndsWith line x)
    (hm : Marked line (older ++ [x]) notes) :
    pausesOn line notes + (if s' = .fresh then 1 else 0) =
      passes (notes.map Prod.fst) + returns line (x :: notes.map Prod.fst) + (if s = .fresh then 1 else 0) := by
  induction notes generalizing older x s with
  | nil =>
    cases hr
    simp [pausesOn, passes, returns]
  | cons y notes ih =>
    obtain ⟨y, paused⟩ := y
    rw [List.map_cons] at hr ⊢
    cases hr with
    | next hn hrest =>
      have hrest := ih hrest hn.endsWith hm.2
      rw [pausesOn_cons, passes_cons, returns]
      cases hn with
      | lap hs =>
        have hat : IsAt line 0 (.lap 0) = false := rfl
        simp only [IsOn, Bool.and_false, Bool.false_eq_true, if_false, hat, and_false, if_true, hs] at hrest ⊢
        omega
      | @own e hs he hd =>
        have hon : IsOn line (.visit e) = true := by simp [IsOn, he]
        have hat : IsAt line 0 (.visit e) = true := isAt_iff.2 ⟨e, rfl, he, hd⟩
        have hpaused := paused_iff he hd hm
        simp only [hon, hat, Bool.and_true, and_true, reduceCtorEq, if_false] at hrest ⊢
        cases s with
        | ahead => exact absurd rfl hs
        | fresh =>
          have hx : x = .lap 0 := hx
          have hat : IsAt line 0 x = false := by rw [hx]; rfl
          have hdepth : x.depth = 0 := by rw [hx]; rfl
          simp only [hpaused, hat, hdepth, Bool.not_false, ne_eq, not_true_eq_false, if_false, if_true]
          omega
        | within =>
          rcases hx with hat | hdepth
          · obtain ⟨p, rfl, -, hp⟩ := isAt_iff.1 hat
            have hdepth : (Sight.visit p).depth = 0 := hp
            simp only [hpaused, hat, hdepth, Bool.not_true, Bool.false_eq_true, ne_eq, not_true_eq_false, if_false,
              reduceCtorEq]
            omega
          · simp only [hpaused, isAt_of_depth hdepth, Bool.not_false, hdepth, ne_eq, not_false_eq_true, if_true,
              reduceCtorEq, if_false]
            omega
      | deeper hs hd hon =>
        have hlap : y ≠ .lap 0 := by
          rintro rfl
          exact hd rfl
        simp only [hon, Bool.and_false, Bool.false_eq_true, if_false, isAt_of_depth hd, and_false, hlap, hs] at hrest ⊢
        omega

/-- **A loop pauses once in each pass and at each return to the line**, seen from its beginning. -/
theorem Stage.Runs.pauses_eq (hr : Runs line .ahead (notes.map Prod.fst) s) (hs : s ≠ .fresh)
    (hm : Marked line older notes) :
    pausesOn line notes = passes (notes.map Prod.fst) + returns line (notes.map Prod.fst) := by
  cases notes with
  | nil => rfl
  | cons y notes =>
    obtain ⟨y, paused⟩ := y
    rw [List.map_cons] at hr ⊢
    cases hr with
    | next hn hrest =>
      have hrest := hrest.pauses hn.endsWith hm.2
      rw [pausesOn_cons, passes_cons]
      cases hn with
      | lap =>
        simp only [IsOn, Bool.and_false, Bool.false_eq_true, if_false, if_true, hs] at hrest ⊢
        omega
      | own hs => exact absurd rfl hs
      | deeper _ hd hon =>
        have hlap : y ≠ .lap 0 := by
          rintro rfl
          exact hd rfl
        simp only [hon, Bool.and_false, Bool.false_eq_true, if_false, hlap, hs, reduceCtorEq] at hrest ⊢
        omega

end Counting

/-! ## A loop with its body on one line -/

/-- Whether a statement is an expression, an output or an assignment. -/
def IsSimple : Stmt → Bool
  | .expr _ _ | .print _ _ _ | .assign _ _ _ => true
  | _ => false

/-- Whether it is the last piece of work of a simple statement. -/
def EndsSimple : Pending → Bool
  | .discard | .write _ | .bind _ => true
  | _ => false

/-- A top-level loop whose body is a block of simple statements that all stand on one line. -/
structure LineLoop (line : Nat) where
  condition : Expr
  body : List Stmt
  bodySpan : Span
  span : Span
  /-- Its number among the statements of the program. -/
  index : Nat
  /-- The statements of the program after it. -/
  after : List Stmt
  nonempty : body ≠ []
  simple : ∀ s ∈ body, IsSimple s = true ∧ s.line = line

namespace LineLoop

variable {line : Nat} (l : LineLoop line)

/-- The body as a statement. -/
def block : Stmt := .block l.body l.bodySpan

/-- The loop as a statement. -/
def statement : Stmt := .loop l.condition l.block l.span

/-- The work that is pending outside the loop. -/
def base : List Pending := [.program (l.index + 1) l.after]

/-- The work that is pending while the condition is evaluated. -/
def test : Pending := .test l.condition l.block

/-- The work that is pending while the body is carried out. -/
def again : Pending := .again l.condition l.block

/-- A machine is about to carry out the loop. -/
structure Entered (m : Machine) : Prop where
  focus : m.focus = .exec l.statement
  pending : m.pending = l.base

/-- The work that is pending while an expression of the loop is evaluated: its condition, or that of a statement. -/
inductive Expects : Stage → List Pending → Prop
  | condition {s : Stage} : s ≠ .fresh → Expects s (l.test :: l.base)
  | statement {w : Pending} {outer : FrameId} {rest : List Stmt} : EndsSimple w = true →
      (∀ t ∈ rest, IsSimple t = true ∧ t.line = line) → Expects .within (w :: .block outer rest :: l.again :: l.base)

/-- A machine is among the statements of the body, outside all calls, with `rest` to come. -/
structure AtBody (rest : List Stmt) (m : Machine) : Prop where
  pending : ∃ outer, m.pending = .block outer rest :: l.again :: l.base
  rest : ∀ t ∈ rest, IsSimple t = true ∧ t.line = line
  depth : m.depth = 0

/-- Where a machine can be while the loop runs, at a stage of it. -/
inductive Phase : Stage → Machine → Prop
  /-- The loop is to be carried out. -/
  | entered {m : Machine} : m.focus = .exec l.statement → m.pending = l.base → m.depth = 0 → Phase .ahead m
  /-- An expression is being evaluated, maybe inside calls that it makes. -/
  | evaluates {s : Stage} {m : Machine} {below : List Pending} {home : Place} : l.Expects s below →
      Working below home .value m → Tallied below 0 m → Phase s m
  /-- The body is to be entered, as a block. -/
  | opens {m : Machine} : m.focus = .start l.block ∨ m.focus = .exec l.block → m.pending = l.again :: l.base →
      m.depth = 0 → Phase .fresh m
  /-- The block was just entered, or a statement of it has come to its end. -/
  | goes {s : Stage} {m : Machine} {rest : List Stmt} : m.focus = .done → l.AtBody rest m → s ≠ .ahead →
      (s = .fresh → rest ≠ []) → Phase s m
  | announces {s : Stage} {m : Machine} {t : Stmt} {rest : List Stmt} : m.focus = .start t → IsSimple t = true →
      t.line = line → l.AtBody rest m → s ≠ .ahead → Phase s m
  | performs {m : Machine} {t : Stmt} {rest : List Stmt} : m.focus = .exec t → IsSimple t = true → l.AtBody rest m →
      Phase .within m
  /-- The body has come to its end. -/
  | closes {m : Machine} : m.focus = .done → m.pending = l.again :: l.base → m.depth = 0 → Phase .within m
  /-- A failure goes outward through the body. -/
  | fails {m : Machine} {d : Diagnostic} : m.focus = .fail d →
      (∃ outer rest, m.pending = .block outer rest :: l.again :: l.base) ∨ m.pending = l.again :: l.base →
      Phase .within m
  /-- The loop is over, and the program is to go on or to fail. -/
  | past {s : Stage} {m : Machine} : s ≠ .fresh → m.focus = .done ∨ (∃ d, m.focus = .fail d) → m.pending = l.base →
      Phase s m
  /-- The program failed with the loop. -/
  | ended {s : Stage} {m : Machine} : s ≠ .fresh → m.Back [] → Phase s m

/-- One step from a stage: what it shows leads to a stage that the machine is then in a phase of. -/
def Steps (s : Stage) (m : Machine) : Prop := ∃ s', Stage.Runs line s m.sights s' ∧ l.Phase s' m.step.1

section Phases

variable {l} {s : Stage} {m : Machine}

/-- A step that shows nothing. -/
theorem steps_unseen (hx : m.sights = []) (h : l.Phase s m.step.1) : l.Steps s m := by
  refine ⟨s, ?_, h⟩
  rw [hx]
  exact .refl s

/-- A step without an event. -/
theorem steps_silent {m' : Machine} (hm : m.step = (m', none)) (h : l.Phase s m') : l.Steps s m :=
  steps_unseen (sights_of_silent hm) (by rw [hm]; exact h)

/-- A step that shows one thing. -/
theorem steps_next {x : Sight} {s' : Stage} (hx : m.sights = [x]) (hn : Stage.Next line s x s')
    (h : l.Phase s' m.step.1) : l.Steps s m := by
  refine ⟨s', ?_, h⟩
  rw [hx]
  exact .next hn (.refl s')

theorem Expects.ne_fresh {below : List Pending} (h : l.Expects s below) : s ≠ .fresh := by
  cases h with
  | condition hs => exact hs
  | statement => decide

/-- An expression of the loop is to be evaluated. -/
theorem phase_eval {below : List Pending} {e : Expr} (he : l.Expects s below) (hm : m.focus = .eval e)
    (hp : m.pending = below) (hd : m.depth = 0) : l.Phase s m := by
  have hw : Working below m.place .value m := by
    rw [← hp]
    exact working_self (Or.inr (by rw [hm]; rfl))
  exact .evaluates he hw ⟨[], hp, hd, by simp⟩

/-- The evaluation of an expression goes on: only the calls that it makes show anything. -/
theorem steps_evaluates {below : List Pending} {home : Place} (hl : Levels (·.line ≠ line) m) (he : l.Expects s below)
    (hw : Working below home .value m) (ht : Tallied below 0 m) (hb : ¬m.Back below) : l.Steps s m := by
  have hphase : l.Phase s m.step.1 :=
    .evaluates he (working_step hw hb) ((shift_step (hw.takes_value hb)).tallied
      (hw.above (by decide) hb) ht)
  cases hx : m.sights with
  | nil => exact steps_unseen hx hphase
  | cons x xs =>
    have hmem : x ∈ m.sights := by rw [hx]; simp
    have hone := eq_of_mem_sights hmem
    have hdepth := depth_of_expression hw ht hb hmem
    refine steps_next hone (.deeper he.ne_fresh hdepth ?_) hphase
    cases x with
    | lap d => rfl
    | visit e =>
      obtain ⟨t, ht, hline⟩ := hl.visit hone hdepth
      simpa [IsOn, ← hline] using ht

/-- An expression ends with a value or a failure. -/
theorem outcome_of_back {below : List Pending} {home : Place} (hw : Working below home .value m) (hb : m.Back below) :
    (∃ v, m.focus = .give v) ∨ ∃ d, m.focus = .fail d := by
  obtain ⟨inner, hi, hy, -⟩ := hw
  have hn : inner = [] := by simpa using hb.1.symm.trans hi
  subst hn
  have ho := hb.2
  cases hm : m.focus with
  | give v => exact Or.inl ⟨v, rfl⟩
  | fail d => exact Or.inr ⟨d, rfl⟩
  | done | leave =>
    rw [hm] at hy
    cases hy
  | start | exec | eval | apply | await =>
    rw [hm] at ho
    cases ho

/-- The condition was evaluated: a pass begins, or the loop is over. -/
theorem steps_condition (hs : s ≠ .fresh) (hp : m.pending = l.test :: l.base) (hd : m.depth = 0)
    (hm : (∃ v, m.focus = .give v) ∨ ∃ d, m.focus = .fail d) : l.Steps s m := by
  rcases hm with ⟨v, hm⟩ | ⟨d, hm⟩
  · have hstep := step_give hm hp
    simp only [test, takeValue] at hstep
    split at hstep
    · have hx : m.sights = [.lap 0] := by
        rw [sights, hstep, ← hd]
        rfl
      refine steps_next hx (.lap hs) ?_
      rw [hstep]
      exact .opens (Or.inl rfl) rfl hd
    · exact steps_silent hstep (.past hs (Or.inl rfl) rfl)
  · have hstep := step_fail hm hp
    exact steps_silent hstep (.past hs (Or.inr ⟨d, hm⟩) rfl)

/-- A simple statement ends with its value. -/
theorem takeValue_simple (v : Value) {w : Pending} (hw : EndsSimple w = true) :
    (m.takeValue v w).1.focus = .done ∧ (m.takeValue v w).1.pending = m.pending ∧
      (m.takeValue v w).1.depth = m.depth := by
  cases w with
  | discard =>
    simp only [takeValue]
    split <;> exact ⟨rfl, rfl, rfl⟩
  | write newline => cases newline <;> exact ⟨rfl, rfl, rfl⟩
  | bind x => exact ⟨rfl, rfl, rfl⟩
  | _ => cases hw

/-- The expression of a statement was evaluated: the statement is at its end, or fails. -/
theorem steps_statement {w : Pending} {outer : FrameId} {rest : List Stmt} (hw : EndsSimple w = true)
    (hrest : ∀ t ∈ rest, IsSimple t = true ∧ t.line = line)
    (hp : m.pending = w :: .block outer rest :: l.again :: l.base) (hd : m.depth = 0)
    (hm : (∃ v, m.focus = .give v) ∨ ∃ d, m.focus = .fail d) : l.Steps .within m := by
  have hx : m.sights = [] := by
    refine sights_eq_nil ?_ ?_
    · intro s hs
      rcases hm with ⟨v, hm⟩ | ⟨d, hm⟩ <;> cases hm.symm.trans hs
    · intro condition body more ht
      cases hp.symm.trans ht
      cases hw
  rcases hm with ⟨v, hm⟩ | ⟨d, hm⟩
  · obtain ⟨hf, hp', hd'⟩ := takeValue_simple
      (m := { m with pending := .block outer rest :: l.again :: l.base }) v hw
    refine steps_unseen hx ?_
    rw [step_give hm hp]
    exact .goes hf ⟨⟨outer, hp'⟩, hrest, hd'.trans hd⟩ (by decide) (fun h => absurd h (by decide))
  · refine steps_silent (step_fail hm hp) ?_
    cases w with
    | discard | write | bind => exact .fails hm (Or.inl ⟨outer, rest, rfl⟩)
    | _ => cases hw

/-- The body is entered. -/
theorem steps_opens (hs : m.stopped = false) (hm : m.focus = .start l.block ∨ m.focus = .exec l.block)
    (hp : m.pending = l.again :: l.base) (hd : m.depth = 0) : l.Steps .fresh m := by
  rcases hm with hm | hm
  · have hstep : m.step = (m.turn (.exec l.block), none) := by
      simp only [step, hm, startStatement, hs]
      rfl
    exact steps_silent hstep (.opens (Or.inr rfl) hp hd)
  · have hstep : m.step = ((m.enter m.here).push .done (.block m.here l.body), none) := by
      simp only [step, hm]
      rfl
    refine steps_silent hstep (.goes rfl ⟨⟨m.here, ?_⟩, l.simple, hd⟩ (by decide) fun _ => l.nonempty)
    show Pending.block m.here l.body :: m.pending = _
    rw [hp]

/-- The body goes on with its next statement, or is at its end. -/
theorem steps_goes {rest : List Stmt} (hm : m.focus = .done) (h : l.AtBody rest m) (hs : s ≠ .ahead)
    (hn : s = .fresh → rest ≠ []) : l.Steps s m := by
  obtain ⟨⟨outer, hp⟩, hrest, hd⟩ := h
  have hstep := step_done hm hp
  refine steps_silent hstep ?_
  cases rest with
  | nil =>
    cases s with
    | ahead => exact absurd rfl hs
    | fresh => exact absurd rfl (hn rfl)
    | within => exact .closes hm rfl hd
  | cons t rest =>
    obtain ⟨ht, hrest⟩ := List.forall_mem_cons.1 hrest
    exact .announces rfl ht.1 ht.2 ⟨⟨outer, rfl⟩, hrest, hd⟩ hs

/-- A statement of the body is announced. -/
theorem steps_announces {t : Stmt} {rest : List Stmt} (hstop : m.stopped = false) (hm : m.focus = .start t)
    (ht : IsSimple t = true) (hline : t.line = line) (h : l.AtBody rest m) (hs : s ≠ .ahead) : l.Steps s m := by
  have hb : t.isBlock = false := by
    cases t with
    | block => cases ht
    | _ => rfl
  have hstep : m.step = (m.turn (.exec t), some (.visit t.line)) := by
    simp only [step, hm, startStatement, hstop, hb]
    rfl
  have hx : m.sights = [.visit ⟨t.line, m.depth, m.cursor⟩] := by
    rw [sights, hstep]
    rfl
  refine steps_next hx (.own hs hline h.depth) ?_
  rw [hstep]
  exact .performs rfl ht ⟨h.pending, h.rest, h.depth⟩

/-- A statement of the body is carried out: its expression is evaluated. -/
theorem steps_performs {t : Stmt} {rest : List Stmt} (hm : m.focus = .exec t) (ht : IsSimple t = true)
    (h : l.AtBody rest m) : l.Steps .within m := by
  obtain ⟨⟨outer, hp⟩, hrest, hd⟩ := h
  have hstep : ∃ e w, EndsSimple w = true ∧ m.step = (m.push (.eval e) w, none) := by
    simp only [step, hm]
    cases t with
    | expr e _ => exact ⟨e, .discard, rfl, rfl⟩
    | print e newline _ => exact ⟨e, .write newline, rfl, rfl⟩
    | assign x e _ => exact ⟨e, .bind x, rfl, rfl⟩
    | _ => cases ht
  obtain ⟨e, w, hw, hstep⟩ := hstep
  have hp' : w :: m.pending = w :: .block outer rest :: l.again :: l.base := by rw [hp]
  exact steps_silent hstep (phase_eval (.statement hw hrest) rfl hp' hd)

/-- After the body, the condition is evaluated again. -/
theorem steps_closes (hm : m.focus = .done) (hp : m.pending = l.again :: l.base) (hd : m.depth = 0) :
    l.Steps .within m := by
  have hstep := step_done hm hp
  exact steps_silent hstep (phase_eval (.condition (by decide)) rfl rfl hd)

/-- A failure goes outward through the body. -/
theorem steps_fails {d : Diagnostic} (hm : m.focus = .fail d)
    (hp : (∃ outer rest, m.pending = .block outer rest :: l.again :: l.base) ∨ m.pending = l.again :: l.base) :
    l.Steps .within m := by
  rcases hp with ⟨outer, rest, hp⟩ | hp
  · have hstep := step_fail hm hp
    exact steps_silent hstep (.fails hm (Or.inr rfl))
  · have hstep := step_fail hm hp
    exact steps_silent hstep (.past (by decide) (Or.inr ⟨d, hm⟩) rfl)

/-- The loop is over: the program goes on with another statement, or ends with a failure. -/
theorem steps_past (hs : s ≠ .fresh) (hm : m.focus = .done ∨ ∃ d, m.focus = .fail d) (hp : m.pending = l.base)
    (hc : m.step.1.cursor = l.index) : l.Steps s m := by
  rcases hm with hm | ⟨d, hm⟩
  · -- the number of the top-level statement is another one then
    have hstep := step_done hm hp
    have hnext : m.step.1.cursor = l.index + 1 := by
      rw [hstep]
      cases l.after <;> rfl
    omega
  · have hstep := step_fail hm hp
    exact steps_silent hstep (.ended hs ⟨rfl, by show m.focus.isOutcome = true; rw [hm]; rfl⟩)

/-- **One step of a loop** leads from phase to phase, and shows what its stage allows. -/
theorem Phase.step (h : l.Phase s m) (hl : Levels (·.line ≠ line) m) (hstop : m.stopped = false) (hb : ¬m.Back [])
    (hc : m.step.1.cursor = l.index) : l.Steps s m := by
  cases h with
  | entered hm hp hd =>
    have hstep : m.step = (m.push (.eval l.condition) l.test, none) := by
      simp only [Machine.step, hm]
      rfl
    refine steps_silent hstep (phase_eval (.condition (by decide)) rfl ?_ hd)
    show l.test :: m.pending = _
    rw [hp]
  | @evaluates _ _ below _ he hw ht =>
    by_cases hback : m.Back below
    · have hm := outcome_of_back hw hback
      have hd := ht.depth_eq hback.1
      cases he with
      | condition hs => exact steps_condition hs hback.1 hd hm
      | statement hend hrest => exact steps_statement hend hrest hback.1 hd hm
    · exact steps_evaluates hl he hw ht hback
  | opens hm hp hd => exact steps_opens hstop hm hp hd
  | goes hm h hs hn => exact steps_goes hm h hs hn
  | announces hm ht hline h hs => exact steps_announces hstop hm ht hline h hs
  | performs hm ht h => exact steps_performs hm ht h
  | closes hm hp hd => exact steps_closes hm hp hd
  | fails hm hp => exact steps_fails hm hp
  | past hs hm hp => exact steps_past hs hm hp hc
  | ended _ hend => exact absurd hend hb

/-- A line that is read is read by an expression. -/
theorem Phase.answer (h : l.Phase s m) {prompt : String} (hm : m.focus = .await prompt) (text : String) :
    l.Phase s (m.answer (.line text)) := by
  cases h with
  | evaluates he hw ht =>
    have hb : ∀ base, ¬m.Back base := by
      intro base hb
      rw [Back, hm] at hb
      cases hb.2
    refine .evaluates he (working_answer hw (by decide) _) ((shift_answer hm _).tallied ?_ ht)
    exact hw.above (by decide) (hb _)
  | entered hf | goes hf | announces hf | performs hf | closes hf | fails hf => cases hf.symm.trans hm
  | opens hf => rcases hf with hf | hf <;> cases hf.symm.trans hm
  | past _ hf =>
    rcases hf with hf | ⟨d, hf⟩ <;> cases hf.symm.trans hm
  | ended _ hb =>
    rw [Back, hm] at hb
    cases hb.2

/-- A pass that has just begun has its body pending: the machine is neither done with the loop nor waiting. -/
theorem Phase.unrested (h : l.Phase .fresh m) :
    (∃ w w' rest, m.pending = w :: w' :: rest) ∧ ∀ prompt, m.focus ≠ .await prompt := by
  cases h with
  | evaluates he => exact absurd rfl he.ne_fresh
  | opens hm hp =>
    refine ⟨⟨_, _, _, hp⟩, fun prompt hf => ?_⟩
    rcases hm with hm | hm <;> cases hm.symm.trans hf
  | goes hm h =>
    obtain ⟨outer, hp⟩ := h.pending
    exact ⟨⟨_, _, _, hp⟩, fun prompt hf => by cases hm.symm.trans hf⟩
  | announces hm _ _ h =>
    obtain ⟨outer, hp⟩ := h.pending
    exact ⟨⟨_, _, _, hp⟩, fun prompt hf => by cases hm.symm.trans hf⟩
  | past hs | ended hs => exact absurd rfl hs

end Phases

/-! ## The loop as a whole -/

/-- The loop runs, and has shown a trace. -/
structure Running (trace : List Sight) (m : Machine) : Prop where
  levels : Levels (·.line ≠ line) m
  phase : ∃ s, Stage.Runs line .ahead trace s ∧ l.Phase s m

section Running

variable {l} {trace : List Sight} {m : Machine}

/-- A loop that is entered is outside all calls, and has shown nothing. -/
theorem Entered.running (h : l.Entered m) (hl : Levels (·.line ≠ line) m) : l.Running [] m := by
  refine ⟨hl, .ahead, .refl _, .entered h.focus h.pending ?_⟩
  obtain ⟨inner, hi, -, hx⟩ := hl.working
  rw [List.append_nil, h.pending] at hi
  rw [← hi] at hx
  exact congrArg (fun place => place.2.depth) hx

theorem Running.step (h : l.Running trace m) (hstop : m.stopped = false) (hb : ¬m.Back [])
    (hc : m.step.1.cursor = l.index) : l.Running (trace ++ m.sights) m.step.1 := by
  obtain ⟨hl, s, hr, hp⟩ := h
  obtain ⟨s', hr', hp'⟩ := hp.step hl hstop hb hc
  exact ⟨hl.step hb, s', hr.append hr', hp'⟩

theorem Running.answer (h : l.Running trace m) {prompt : String} (hm : m.focus = .await prompt) (text : String) :
    l.Running trace (m.answer (.line text)) := by
  obtain ⟨hl, s, hr, hp⟩ := h
  exact ⟨hl.answer hm text, s, hr, hp.answer hm text⟩

end Running

end LineLoop

/-- Whether a machine is between two statements of its program. -/
def IsBetween (m : Machine) : Bool :=
  match m.pending with
  | [.program _ _] => m.focus.isOutcome
  | _ => false

namespace Controller

variable {c : Controller Script} {m : Machine} {stepper : Stepper} {k : Script} {line : Nat}

/-- Where a session comes to, its machine runs nothing inside calls but code of functions. -/
theorem Underway.levels {p : Stmt → Prop} (h : c.Underway m stepper k) (hl : Levels p m) (acts : List Act)
    {live : Live} (hlive : (c.after acts).live = some live) :
    Levels p live.machine ∧ ∃ stepper' k', (c.after acts).Underway live.machine stepper' k' := by
  obtain ⟨m', hl', ⟨stepper', k', hu⟩ | ⟨hdead, -⟩⟩ := h.along (I := fun _ m => Levels p m)
    (fun _ m hl _ hb _ _ => hl.step hb) (fun _ m prompt line hl hm => hl.answer hm line) [] hl (during_true acts)
  · cases hu.live.symm.trans hlive
    exact ⟨hl', stepper', k', hu⟩
  · cases hdead.symm.trans hlive

/-- A session that is at rest, or is done with the loop, is not at the beginning of a pass. -/
theorem Kept.not_fresh {l : LineLoop line} {s : Stage} {older trace : List Sight} (h : c.Kept line (older ++ trace))
    (hu : c.Underway m stepper k) (hr : Stage.Runs line .ahead trace s) (hp : l.Phase s m)
    (hend : c.isGoing = false ∨ c.live.any (IsBetween ·.machine) = true) : s ≠ .fresh := by
  rintro rfl
  obtain ⟨⟨w, w', rest, hpend⟩, hawait⟩ := hp.unrested
  rcases hend with hg | hbetween
  · have hprompt : c.prompt = none := hu.prompt.resolve_right fun ⟨prompt, hm⟩ => hawait prompt hm
    have hstate : c.state = .paused := by
      refine Classical.byContradiction fun hn => ?_
      rw [hu.isGoing_iff.2 ⟨hprompt, hn⟩] at hg
      cases hg
    -- a paused session has a statement behind it, and no pass begins there
    obtain ⟨-, hlive | ⟨o, m', k', -, hlast⟩⟩ := h
    · cases hlive.symm.trans hu.live
    · rw [if_pos hstate] at hlast
      obtain ⟨hs, -⟩ | ⟨ys, rfl⟩ := hr.ends_fresh rfl
      · cases hs
      · rw [← List.append_assoc, latest_append_lap] at hlast
        exact hlast rfl
  · simp [hu.live, IsBetween, hpend] at hbetween

end Controller

open Controller in
/-- **How often a loop pauses.** A session is only resumed, with a breakpoint kept on the line on which all statements
of the body of a top-level loop stand, and no function has a statement there. From when the loop is entered, at every
rest of the session while it runs and once it is over: the session has paused on the line once for each pass, and once
more for each statement on the line that came right after something inside a call. So it has paused more often than the
loop has passed as soon as a statement of the body follows, in the same pass, one that called a function. -/
theorem loop_pauses_eq {c c₁ c₂ : Controller Script} {k : Script} {entropy : Random} {source : String}
    {program : Program} {line : Nat} {earlier acts : List Act} (l : LineLoop line) (hs : c.sink = scriptSink none)
    (hp : compile source = .ok program) (hst : c.start source k entropy = .ok c₁) (hl : line ∈ c.breakpoints)
    (hk : ∀ a ∈ earlier ++ acts, a.keeps line = true) (hfun : ∀ s ∈ program, s.Bodies (·.line ≠ line))
    (hc : c₁.after earlier = c₂) (hloop : ∃ live, c₂.live = some live ∧ l.Entered live.machine)
    (hd : c₂.during (·.cursor == l.index) acts = true)
    (hend : (c₂.after acts).isGoing = false ∨ (c₂.after acts).live.any (IsBetween ·.machine) = true) :
    pausesOn line (c₂.noted acts) =
      passes ((c₂.noted acts).map Prod.fst) + returns line ((c₂.noted acts).map Prod.fst) := by
  subst hc
  obtain ⟨live, hlive, hentered⟩ := hloop
  have hearlier : ∀ a ∈ earlier, a.keeps line = true := fun a h => hk a (List.mem_append_left acts h)
  have hacts : ∀ a ∈ acts, a.keeps line = true := fun a h => hk a (List.mem_append_right earlier h)
  obtain ⟨-, hkept⟩ := (kept_start hs hp hst hl).noted hearlier
  obtain ⟨hmarked, hkept'⟩ := hkept.noted hacts
  obtain ⟨hu, -⟩ := underway_start hs hp hst
  obtain ⟨hlevels, stepper, k', hu'⟩ := hu.levels (levels_begin c.registry c.config entropy hfun) earlier hlive
  obtain ⟨m, ⟨-, s, hr, hphase⟩, hfinal⟩ := hu'.along (I := l.Running)
    (fun _ _ h hm hb _ hw => h.step hm.unstopped hb (by simpa using hw)) (fun _ _ _ text h hm => h.answer hm text) []
    (hentered.running hlevels) hd
  rw [List.nil_append] at hr
  refine hr.pauses_eq ?_ hmarked
  rcases hfinal with ⟨stepper', k'', hu''⟩ | ⟨-, hb⟩
  · exact hkept'.not_fresh hu'' hr hphase hend
  · rintro rfl
    obtain ⟨⟨w, w', rest, hpend⟩, -⟩ := hphase.unrested
    cases hb.1.symm.trans hpend

/-- A program with a loop on line 5 whose body, on line 6, calls a function and then writes. -/
def callInLoop : String :=
  "function f(x) \x7b\n  return x;\n\x7d\ni = true;\nwhile (i) \x7b\n  i = f(false); print(\"a\");\n\x7d\n"

/-- The tokens of `callInLoop`. -/
def callInLoopTokens : List Token :=
  [⟨.function, "function", none, ⟨0, 8, 1⟩⟩, ⟨.identifier, "f", none, ⟨9, 10, 1⟩⟩,
    ⟨.leftParen, "(", none, ⟨10, 11, 1⟩⟩, ⟨.identifier, "x", none, ⟨11, 12, 1⟩⟩, ⟨.rightParen, ")", none, ⟨12, 13, 1⟩⟩,
    ⟨.leftBrace, "\x7b", none, ⟨14, 15, 1⟩⟩, ⟨.return, "return", none, ⟨18, 24, 2⟩⟩,
    ⟨.identifier, "x", none, ⟨25, 26, 2⟩⟩, ⟨.semicolon, ";", none, ⟨26, 27, 2⟩⟩,
    ⟨.rightBrace, "\x7d", none, ⟨28, 29, 3⟩⟩, ⟨.identifier, "i", none, ⟨30, 31, 4⟩⟩, ⟨.equal, "=", none, ⟨32, 33, 4⟩⟩,
    ⟨.true, "true", none, ⟨34, 38, 4⟩⟩, ⟨.semicolon, ";", none, ⟨38, 39, 4⟩⟩, ⟨.while, "while", none, ⟨40, 45, 5⟩⟩,
    ⟨.leftParen, "(", none, ⟨46, 47, 5⟩⟩, ⟨.identifier, "i", none, ⟨47, 48, 5⟩⟩, ⟨.rightParen, ")", none, ⟨48, 49, 5⟩⟩,
    ⟨.leftBrace, "\x7b", none, ⟨50, 51, 5⟩⟩, ⟨.identifier, "i", none, ⟨54, 55, 6⟩⟩, ⟨.equal, "=", none, ⟨56, 57, 6⟩⟩,
    ⟨.identifier, "f", none, ⟨58, 59, 6⟩⟩, ⟨.leftParen, "(", none, ⟨59, 60, 6⟩⟩, ⟨.false, "false", none, ⟨60, 65, 6⟩⟩,
    ⟨.rightParen, ")", none, ⟨65, 66, 6⟩⟩, ⟨.semicolon, ";", none, ⟨66, 67, 6⟩⟩, ⟨.print, "print", none, ⟨68, 73, 6⟩⟩,
    ⟨.leftParen, "(", none, ⟨73, 74, 6⟩⟩, ⟨.string, "\"a\"", some (.text "a"), ⟨74, 77, 6⟩⟩,
    ⟨.rightParen, ")", none, ⟨77, 78, 6⟩⟩, ⟨.semicolon, ";", none, ⟨78, 79, 6⟩⟩,
    ⟨.rightBrace, "\x7d", none, ⟨80, 81, 7⟩⟩, .eof ⟨82, 82, 8⟩]

theorem scan_callInLoop : scan callInLoop = .ok callInLoopTokens := by
  rw [scan_eq_scanWithin]
  rfl

/-- The loop of `callInLoop`. -/
def callInLoopLoop : LineLoop 6 where
  condition := .name "i" ⟨47, 48, 5⟩
  body := [.assign "i" (.call (.name "f" ⟨58, 59, 6⟩) [.literal (.boolean false) ⟨60, 65, 6⟩] ⟨58, 66, 6⟩) ⟨54, 67, 6⟩,
    .print (.literal (.text "a") ⟨74, 77, 6⟩) false ⟨68, 79, 6⟩]
  bodySpan := ⟨50, 81, 5⟩
  span := ⟨40, 81, 5⟩
  index := 2
  after := []
  nonempty := List.cons_ne_nil _ _
  simple := by decide

/-- The tree of `callInLoop`. -/
def callInLoopProgram : Program :=
  [.function "f" ["x"] [.leave (some (.name "x" ⟨25, 26, 2⟩)) ⟨18, 27, 2⟩] ⟨0, 29, 1⟩,
    .assign "i" (.literal (.boolean true) ⟨34, 38, 4⟩) ⟨30, 39, 4⟩, callInLoopLoop.statement]

theorem compile_callInLoop : compile callInLoop = .ok callInLoopProgram := by
  rw [compile, scan_callInLoop]
  rfl

/-- No function of `callInLoop` has a statement on line 6. -/
theorem bodies_callInLoop : ∀ s ∈ callInLoopProgram, s.Bodies (·.line ≠ 6) := by
  have hbare : ∀ {s : Stmt}, s.parts = [] → s.body = [] → s.Bodies (·.line ≠ 6) := fun hp hb =>
    .intro (by simp [hp]) (by simp [hb])
  intro s hs
  simp only [callInLoopProgram, List.mem_cons, List.not_mem_nil, or_false] at hs
  rcases hs with rfl | rfl | rfl
  · refine .intro (by simp [Stmt.parts]) ?_
    intro t ht
    rw [List.mem_singleton.1 ht]
    exact .intro (by decide) (by simp [Stmt.parts]) (by simp [Stmt.body])
  · exact hbare rfl rfl
  · refine .intro ?_ (by simp [LineLoop.statement, Stmt.body])
    intro t ht
    rw [List.mem_singleton.1 ht]
    refine .intro ?_ (by simp [LineLoop.block, Stmt.body])
    intro u hu
    rcases List.mem_cons.1 hu with rfl | hu
    · exact hbare rfl rfl
    · rw [List.mem_singleton.1 hu]
      exact hbare rfl rfl

/-- The acts that lead a session of `callInLoop`, with a breakpoint on line 6, to its loop. -/
def toLoop : List Act := List.replicate 2 .tick ++ [.resume] ++ List.replicate 8 .tick

/-- The acts that lead it through the loop. -/
def throughLoop : List Act :=
  List.replicate 7 .tick ++ [.resume] ++ List.replicate 16 .tick ++ [.resume] ++ List.replicate 7 .tick

open Controller in
/-- A body that calls a function and then goes on has one pause more than passes. -/
theorem loop_pauses_eq_callInLoop :
    ∃ c₁ : Controller Script,
      (Controller.new .empty .default (scriptSink none) [6]).start callInLoop (.ofInputs []) (.ofSeed 0) = .ok c₁ ∧
      (∃ live, (c₁.after toLoop).live = some live ∧ callInLoopLoop.Entered live.machine) ∧
      pausesOn 6 ((c₁.after toLoop).noted throughLoop) =
        passes (((c₁.after toLoop).noted throughLoop).map Prod.fst) + 1 := by
  obtain ⟨c₁, hst, hloop, hd, hend, hr⟩ : ∃ c₁ : Controller Script,
      (Controller.new .empty .default (scriptSink none) [6]).start callInLoop (.ofInputs []) (.ofSeed 0) = .ok c₁ ∧
      (∃ live, (c₁.after toLoop).live = some live ∧ callInLoopLoop.Entered live.machine) ∧
      (c₁.after toLoop).during (·.cursor == 2) throughLoop = true ∧
      ((c₁.after toLoop).after throughLoop).live.any (IsBetween ·.machine) = true ∧
      returns 6 (((c₁.after toLoop).noted throughLoop).map Prod.fst) = 1 := by
    refine ⟨_, by rw [start, compile_callInLoop]; rfl, ⟨_, rfl, rfl, rfl⟩, ?_, ?_, ?_⟩ <;> decide +kernel
  refine ⟨c₁, hst, hloop, ?_⟩
  rw [← hr]
  exact loop_pauses_eq callInLoopLoop rfl compile_callInLoop hst (by decide) (by decide) bodies_callInLoop rfl hloop hd
    (Or.inr hend)

open Controller in
/-- **A breakpoint in a loop pauses twice in one pass**: the loop of `callInLoop` begins one pass, from when it is
entered until it is over, and the session pauses on line 6 at both statements of the body, since the call in the first
one was to line 2. -/
theorem loop_pauses_twice :
    ∃ c₁ : Controller Script,
      (Controller.new .empty .default (scriptSink none) [6]).start callInLoop (.ofInputs []) (.ofSeed 0) = .ok c₁ ∧
      (∃ live, (c₁.after toLoop).live = some live ∧ callInLoopLoop.Entered live.machine) ∧
      (c₁.after toLoop).during (·.cursor == callInLoopLoop.index) throughLoop = true ∧
      ((c₁.after toLoop).after throughLoop).live.any (IsBetween ·.machine) = true ∧
      (c₁.after toLoop).noted throughLoop =
        [(.lap 0, false), (.visit ⟨6, 0, 2⟩, true), (.visit ⟨2, 1, 2⟩, false), (.visit ⟨6, 0, 2⟩, true)] ∧
      passes (((c₁.after toLoop).noted throughLoop).map Prod.fst) = 1 ∧
      pausesOn 6 ((c₁.after toLoop).noted throughLoop) = 2 := by
  refine ⟨_, by rw [start, compile_callInLoop]; rfl, ⟨_, rfl, rfl, rfl⟩, ?_, ?_, ?_, ?_, ?_⟩ <;> decide +kernel

end StepScript.Debugger
