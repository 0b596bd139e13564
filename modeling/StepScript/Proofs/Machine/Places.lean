import Mathlib.Logic.Relation
import StepScript.Proofs.Grammar.Places
import StepScript.Proofs.Machine.Bodies

/-!
# Failures point into the program

Whatever a machine works at comes from its program, and so do the places at which it can fail: `Placed S m` says that
`S` holds of every span in the focus and in the pending work of a machine, and that a failure under way is at such a
span. The bodies of the functions among its values are taken stock of by `Coded`. Together (`Pinned`) they are kept by
every step, every answer to a read and every change of the stop flag.

With the spans of a program for `S`, a run of the program that ends in a failure ends at a node of the program
(`failure_points_into_program`).
-/

namespace StepScript

variable {S : Span → Prop}

/-! ## Statements -/

namespace Stmt

/-- The spans of a statement and of its expressions, without those of the statements in it. -/
def ownSpans : Stmt → List Span
  | expr e span | print e _ span | assign _ e span => span :: e.spans
  | input _ e span | leave e span => span :: Expr.spansOf e.toList
  | branch condition _ _ span | loop condition _ span => span :: condition.spans
  | block _ span | function _ _ _ span => [span]

/-- `S` holds of these spans. -/
def Placed (S : Span → Prop) (s : Stmt) : Prop := ∀ x ∈ s.ownSpans, S x

theorem All.here {p : Stmt → Prop} {s : Stmt} (h : s.All p) : p s := by
  cases h with
  | intro hs _ _ => exact hs

mutual

/-- What holds of all spans of a statement holds of those of every statement in it. -/
theorem all_placed : ∀ {s : Stmt}, (∀ x ∈ s.spans, S x) → s.All (Placed S)
  | expr e span, h => .intro h nofun nofun
  | print e newline span, h => .intro h nofun nofun
  | input keyword prompt span, h => .intro h nofun nofun
  | assign x value span, h => .intro h nofun nofun
  | leave value span, h => .intro h nofun nofun
  | block body span, h => by
    obtain ⟨hspan, hbody⟩ := List.forall_mem_cons.1 h
    exact .intro (List.forall_mem_singleton.2 hspan) (all_placed_of_mem hbody) nofun
  | function x params body span, h => by
    obtain ⟨hspan, hbody⟩ := List.forall_mem_cons.1 h
    exact .intro (List.forall_mem_singleton.2 hspan) nofun (all_placed_of_mem hbody)
  | loop condition body span, h => by
    obtain ⟨hspan, hparts⟩ := List.forall_mem_cons.1 h
    obtain ⟨hc, hbody⟩ := List.forall_mem_append.1 hparts
    exact .intro (List.forall_mem_cons.2 ⟨hspan, hc⟩) (List.forall_mem_singleton.2 (all_placed hbody)) nofun
  | branch condition yes none span, h => by
    obtain ⟨hspan, hparts⟩ := List.forall_mem_cons.1 h
    obtain ⟨hc, hyes⟩ := List.forall_mem_append.1 hparts
    exact .intro (List.forall_mem_cons.2 ⟨hspan, hc⟩) (List.forall_mem_singleton.2 (all_placed hyes)) nofun
  | branch condition yes (some no) span, h => by
    obtain ⟨hspan, hparts⟩ := List.forall_mem_cons.1 h
    obtain ⟨hfront, hno⟩ := List.forall_mem_append.1 hparts
    obtain ⟨hc, hyes⟩ := List.forall_mem_append.1 hfront
    refine .intro (List.forall_mem_cons.2 ⟨hspan, hc⟩) (List.forall_mem_cons.2 ⟨all_placed hyes, ?_⟩) nofun
    exact List.forall_mem_singleton.2 (all_placed hno)

theorem all_placed_of_mem : ∀ {ss : List Stmt}, (∀ x ∈ Stmt.spansOf ss, S x) → ∀ s ∈ ss, s.All (Placed S)
  | [], _ => nofun
  | s :: ss, h => by
    obtain ⟨hs, hss⟩ := List.forall_mem_append.1 h
    exact List.forall_mem_cons.2 ⟨all_placed hs, all_placed_of_mem hss⟩

end

end Stmt

/-! ## Taking stock of places -/

/-- `S` holds of the spans of an expression or a call that the focus is about, and of the place of a failure, which is
there. -/
def Focus.Placed (S : Span → Prop) : Focus → Prop
  | eval e => ∀ x ∈ e.spans, S x
  | apply _ _ span => S span
  | fail d => ∃ span, d.span = some span ∧ S span
  | _ => True

/-- The spans that a piece of pending work keeps, without those of its statements. -/
def Pending.spans : Pending → List Span
  | prompt span | reply _ span | combine _ _ span | unary _ span | property _ span | index _ span | setProperty _ span
  | setValue _ _ span => [span]
  | test condition _ | again condition _ => condition.spans
  | right _ e span | object e span | setIndex _ e span => span :: e.spans
  | logical _ e => e.spans
  | callee args span | argument _ _ args span => span :: Expr.spansOf args
  | item _ rest => Expr.spansOf rest
  | setObject e value span => span :: (e.spans ++ value.spans)
  | discard | write _ | bind _ | block _ _ | choose _ _ | returning | call _ _ | program _ _ | assign _ => []

namespace Machine

/-- `S` holds of the places in the pending work. -/
structure Shelved (S : Span → Prop) (m : Machine) : Prop where
  pending : ∀ w ∈ m.pending, ∀ x ∈ w.spans, S x

/-- And of those in the focus. -/
structure Placed (S : Span → Prop) (m : Machine) : Prop extends Shelved S m where
  focus : m.focus.Placed S

section Operations

variable {m : Machine} {span : Span}

theorem Shelved.turn (h : m.Shelved S) {f : Focus} (hf : f.Placed S) : (m.turn f).Placed S := ⟨⟨h.pending⟩, hf⟩

theorem Shelved.push (h : m.Shelved S) {f : Focus} {w : Pending} (hf : f.Placed S) (hw : ∀ x ∈ w.spans, S x) :
    (m.push f w).Placed S := ⟨⟨List.forall_mem_cons.2 ⟨hw, h.pending⟩⟩, hf⟩

theorem Shelved.raise (h : m.Shelved S) (hx : S span) (f : RuntimeFault) : (m.raise span f).Placed S :=
  h.turn ⟨span, rfl, hx⟩

theorem Shelved.settle (h : m.Shelved S) (hx : S span) (r : Except RuntimeFault Value) :
    (m.settle span r).Placed S := by
  cases r with
  | ok v => exact h.turn trivial
  | error f => exact h.raise hx f

theorem Shelved.request (h : m.Shelved S) (keep : Bool) (hx : S span) (prompt : String) :
    (m.request keep span prompt).Placed S := by
  unfold Machine.request
  split
  · exact h.turn ⟨span, rfl, hx⟩
  · exact h.push trivial (List.forall_mem_singleton.2 hx)

/-- A builtin fails where it is called. -/
theorem Shelved.runBuiltin (h : m.Shelved S) (b : Builtin) (args : List Value) (hx : S span) :
    (m.runBuiltin b args span).1.Placed S := by
  have hs : (m.withStore (b.run args)).2.Shelved S := ⟨h.pending⟩
  unfold Machine.runBuiltin
  dsimp only
  cases (m.withStore (b.run args)).1 with
  | value v => exact hs.turn trivial
  | write | writeLine | clear => exact hs.turn trivial
  | ask prompt => exact hs.request true hx prompt
  | fault f => exact hs.raise hx f

/-- The stop is noticed at the statement that comes next. -/
theorem Shelved.startStatement (h : m.Shelved S) {s : Stmt} (hs : s.Placed S) : (m.startStatement s).1.Placed S := by
  have hspan : S s.span := by
    cases s <;> exact hs _ List.mem_cons_self
  unfold Machine.startStatement
  split
  · exact h.turn ⟨s.span, rfl, hspan⟩
  · split <;> exact h.turn trivial

theorem Shelved.execStatement (h : m.Shelved S) {s : Stmt} (hs : s.Placed S) : (m.execStatement s).Placed S := by
  cases s with
  | expr | print | assign | branch =>
    obtain ⟨-, he⟩ := List.forall_mem_cons.1 hs
    exact h.push he (List.forall_mem_nil _)
  | loop condition body span =>
    obtain ⟨-, hc⟩ := List.forall_mem_cons.1 hs
    exact h.push hc hc
  | input keyword prompt span =>
    obtain ⟨hspan, hprompt⟩ := List.forall_mem_cons.1 hs
    cases prompt with
    | none => exact h.request false hspan _
    | some e => exact h.push (List.forall_mem_append.1 hprompt).1 (List.forall_mem_singleton.2 hspan)
  | block body span => exact Shelved.push (m := m.enter m.here) ⟨h.pending⟩ trivial (List.forall_mem_nil _)
  | function x params body span => exact ⟨⟨h.pending⟩, trivial⟩
  | leave value span =>
    cases value with
    | none => exact h.turn trivial
    | some e =>
      obtain ⟨-, he⟩ := List.forall_mem_cons.1 hs
      exact h.push (List.forall_mem_append.1 he).1 (List.forall_mem_nil _)

theorem Shelved.evalExpression (h : m.Shelved S) {e : Expr} (he : ∀ x ∈ e.spans, S x) :
    (m.evalExpression e).Placed S := by
  cases e with
  | literal value span => exact h.turn trivial
  | name x span =>
    simp only [Machine.evalExpression]
    split
    · exact h.turn trivial
    · exact h.raise (he span List.mem_cons_self) _
  | assign x value span => exact h.push (List.forall_mem_cons.1 he).2 (List.forall_mem_nil _)
  | group inner span => exact h.turn (List.forall_mem_cons.1 he).2
  | unary | property =>
    obtain ⟨hspan, hparts⟩ := List.forall_mem_cons.1 he
    exact h.push hparts (List.forall_mem_singleton.2 hspan)
  | binary | call | element =>
    obtain ⟨hspan, hparts⟩ := List.forall_mem_cons.1 he
    obtain ⟨hfirst, hrest⟩ := List.forall_mem_append.1 hparts
    exact h.push hfirst (List.forall_mem_cons.2 ⟨hspan, hrest⟩)
  | logical op left right span =>
    obtain ⟨-, hparts⟩ := List.forall_mem_cons.1 he
    obtain ⟨hleft, hright⟩ := List.forall_mem_append.1 hparts
    exact h.push hleft hright
  | array items span =>
    cases items with
    | nil => exact ⟨⟨h.pending⟩, trivial⟩
    | cons e rest =>
      obtain ⟨hfirst, hrest⟩ := List.forall_mem_append.1 (List.forall_mem_cons.1 he).2
      exact h.push hfirst hrest
  | setProperty object x value span =>
    obtain ⟨hspan, hparts⟩ := List.forall_mem_cons.1 he
    exact h.push (List.forall_mem_append.1 hparts).1 (List.forall_mem_singleton.2 hspan)
  | setElement object index value span =>
    obtain ⟨hspan, hparts⟩ := List.forall_mem_cons.1 he
    -- The object is evaluated, and the index and the value wait together.
    rw [List.append_assoc] at hparts
    obtain ⟨hobject, hrest⟩ := List.forall_mem_append.1 hparts
    exact h.push hobject (List.forall_mem_cons.2 ⟨hspan, hrest⟩)

/-- A call that comes to nothing fails where it stands. -/
theorem Shelved.applyValue (h : m.Shelved S) (callee : Value) (args : List Value) (hx : S span) :
    (m.applyValue callee args span).1.Placed S := by
  unfold Machine.applyValue
  split
  · split
    · split
      · exact h.runBuiltin _ args hx
      · exact h.raise hx _
    · exact h.runBuiltin _ args hx
  · split
    · exact h.raise hx _
    · split
      · exact h.raise hx _
      · exact ⟨⟨List.forall_mem_cons.2 ⟨List.forall_mem_nil _, h.pending⟩⟩, trivial⟩
  · exact h.raise hx _

theorem Shelved.takeValue (h : m.Shelved S) (v : Value) {w : Pending} (hw : ∀ x ∈ w.spans, S x) :
    (m.takeValue v w).1.Placed S := by
  cases w with
  | discard =>
    simp only [Machine.takeValue]
    split <;> exact ⟨⟨h.pending⟩, trivial⟩
  | write newline => cases newline <;> exact h.turn trivial
  | prompt span => exact h.request false (hw span List.mem_cons_self) _
  | bind | assign => exact ⟨⟨h.pending⟩, trivial⟩
  | choose yes no =>
    simp only [Machine.takeValue]
    split
    · exact h.turn trivial
    · split <;> exact h.turn trivial
  | test condition body =>
    simp only [Machine.takeValue]
    split
    · exact h.push trivial hw
    · exact h.turn trivial
  | right op right span =>
    obtain ⟨hspan, hright⟩ := List.forall_mem_cons.1 hw
    exact h.push hright (List.forall_mem_singleton.2 hspan)
  | combine | unary | property | index => exact h.settle (hw _ List.mem_cons_self) _
  | logical op right =>
    simp only [Machine.takeValue]
    split
    · exact h.turn trivial
    · exact h.turn hw
  | callee args span =>
    obtain ⟨hspan, hargs⟩ := List.forall_mem_cons.1 hw
    cases args with
    | nil => exact h.turn hspan
    | cons e rest =>
      obtain ⟨he, hrest⟩ := List.forall_mem_append.1 hargs
      exact h.push he (List.forall_mem_cons.2 ⟨hspan, hrest⟩)
  | argument callee before args span =>
    obtain ⟨hspan, hargs⟩ := List.forall_mem_cons.1 hw
    cases args with
    | nil => exact h.turn hspan
    | cons e rest =>
      obtain ⟨he, hrest⟩ := List.forall_mem_append.1 hargs
      exact h.push he (List.forall_mem_cons.2 ⟨hspan, hrest⟩)
  | item before rest =>
    cases rest with
    | nil => exact ⟨⟨h.pending⟩, trivial⟩
    | cons e rest =>
      obtain ⟨he, hrest⟩ := List.forall_mem_append.1 hw
      exact h.push he hrest
  | object index span =>
    obtain ⟨hspan, hindex⟩ := List.forall_mem_cons.1 hw
    exact h.push hindex (List.forall_mem_singleton.2 hspan)
  | setProperty x span => cases v <;> exact h.raise (hw span List.mem_cons_self) _
  | setObject index value span =>
    obtain ⟨hspan, hparts⟩ := List.forall_mem_cons.1 hw
    obtain ⟨hindex, hvalue⟩ := List.forall_mem_append.1 hparts
    simp only [Machine.takeValue]
    split
    · exact h.raise hspan _
    · exact h.push hindex (List.forall_mem_cons.2 ⟨hspan, hvalue⟩)
  | setIndex object value span =>
    obtain ⟨hspan, hvalue⟩ := List.forall_mem_cons.1 hw
    exact h.push hvalue (List.forall_mem_singleton.2 hspan)
  | setValue object index span =>
    simp only [Machine.takeValue]
    split
    · exact ⟨⟨h.pending⟩, trivial⟩
    · exact h.raise (hw span List.mem_cons_self) _
  | returning | reply | block | again | call | program => exact h.turn trivial

theorem Placed.afterStatement (h : m.Placed S) {w : Pending} (hw : ∀ x ∈ w.spans, S x) :
    (m.afterStatement w).Placed S := by
  cases w with
  | block outer rest =>
    cases rest with
    | nil => exact ⟨⟨h.pending⟩, h.focus⟩
    | cons s rest => exact h.toShelved.push trivial (List.forall_mem_nil _)
  | call outer rest =>
    cases rest with
    | nil => exact ⟨⟨h.pending⟩, trivial⟩
    | cons s rest => exact h.toShelved.push trivial (List.forall_mem_nil _)
  | program index rest =>
    cases rest with
    | nil => exact ⟨⟨h.pending⟩, trivial⟩
    | cons s rest => exact ⟨⟨List.forall_mem_cons.2 ⟨List.forall_mem_nil _, h.pending⟩⟩, trivial⟩
  | again condition body => exact h.toShelved.push hw hw
  | _ => exact h

theorem Placed.leaveThrough (h : m.Placed S) (v : Value) (w : Pending) : (m.leaveThrough v w).Placed S := by
  cases w with
  | block => exact ⟨⟨h.pending⟩, h.focus⟩
  | call | program => exact ⟨⟨h.pending⟩, trivial⟩
  | _ => exact h

/-- A failure keeps its place on its way outward. -/
theorem Placed.failThrough (h : m.Placed S) (w : Pending) : (m.failThrough w).Placed S := by
  cases w <;> exact ⟨⟨h.pending⟩, h.focus⟩

/-- The innermost piece of pending work, and the machine without it. -/
theorem Placed.pop (h : m.Placed S) {w : Pending} {rest : List Pending} (hp : m.pending = w :: rest) :
    (∀ x ∈ w.spans, S x) ∧ ({ m with pending := rest } : Machine).Placed S := by
  have hpending := h.pending
  rw [hp] at hpending
  obtain ⟨hw, hrest⟩ := List.forall_mem_cons.1 hpending
  exact ⟨hw, ⟨hrest⟩, h.focus⟩

end Operations

/-! ## One move -/

/-- All that the machine holds is placed: the bodies of functions, the statements and the expressions to come, and the
failure under way. -/
structure Pinned (S : Span → Prop) (m : Machine) : Prop where
  coded : Coded (.ofBodies (Stmt.Placed S)) (Stmt.All (Stmt.Placed S)) [] m
  placed : m.Placed S

section Moves

variable {m m' : Machine}

/-- **A step fails at a place that the machine holds**, or goes on with places that it held. -/
theorem Pinned.placed_step (h : m.Pinned S) : m.step.1.Placed S := by
  have hfocus := h.placed.focus
  have hcode := h.coded.focus.code
  have hshelved := h.placed.toShelved
  -- Statements are known by the stock of code, which goes down into the functions among the values as well; expressions
  -- and calls by the focus and the pending work.
  cases hm : m.focus with
  | start s =>
    rw [hm] at hcode
    simp only [Machine.step, hm]
    exact hshelved.startStatement (hcode s List.mem_cons_self).here
  | exec s =>
    rw [hm] at hcode
    simp only [Machine.step, hm]
    exact hshelved.execStatement (hcode s List.mem_cons_self).here
  | eval e =>
    rw [hm] at hfocus
    simp only [Machine.step, hm]
    exact hshelved.evalExpression hfocus
  | apply callee args span =>
    rw [hm] at hfocus
    simp only [Machine.step, hm]
    exact hshelved.applyValue callee args hfocus
  | await prompt =>
    simp only [Machine.step, hm]
    exact h.placed
  | give v =>
    cases hp : m.pending with
    | nil =>
      simp only [Machine.step, hm, hp]
      exact h.placed
    | cons w rest =>
      obtain ⟨hw, hr⟩ := h.placed.pop hp
      rw [step_give hm hp]
      exact hr.toShelved.takeValue v hw
  | done =>
    cases hp : m.pending with
    | nil =>
      simp only [Machine.step, hm, hp]
      exact h.placed
    | cons w rest =>
      obtain ⟨hw, hr⟩ := h.placed.pop hp
      rw [step_done hm hp]
      exact hr.afterStatement hw
  | leave v =>
    cases hp : m.pending with
    | nil =>
      simp only [Machine.step, hm, hp]
      exact h.placed
    | cons w rest =>
      rw [step_leave hm hp]
      exact (h.placed.pop hp).2.leaveThrough v w
  | fail d =>
    cases hp : m.pending with
    | nil =>
      simp only [Machine.step, hm, hp]
      exact h.placed
    | cons w rest =>
      rw [step_fail hm hp]
      exact (h.placed.pop hp).2.failThrough w

/-- A cancelled read fails at the statement or the call that reads. -/
theorem Placed.answer (h : m.Placed S) (reply : Reply) : (m.answer reply).Placed S := by
  unfold Machine.answer
  split
  · rename_i keep span rest hm hp
    obtain ⟨hw, hr⟩ := h.pop hp
    have hspan : S span := hw span List.mem_cons_self
    cases reply with
    | line text =>
      dsimp only
      split <;> exact hr.toShelved.turn trivial
    | cancelled =>
      dsimp only
      split <;> exact hr.toShelved.turn ⟨span, rfl, hspan⟩
  · exact h

theorem Pinned.step (h : m.Pinned S) : m.step.1.Pinned S :=
  ⟨h.coded.step (goes_all _) above_nil, h.placed_step⟩

theorem Pinned.answer (h : m.Pinned S) (reply : Reply) : (m.answer reply).Pinned S :=
  ⟨h.coded.answer above_nil reply, h.placed.answer reply⟩

theorem Pinned.flag (h : m.Pinned S) (stopped : Bool) : ({ m with stopped := stopped } : Machine).Pinned S :=
  ⟨⟨⟨h.coded.store, h.coded.latest, h.coded.work⟩, h.coded.focus⟩, ⟨h.placed.pending⟩, h.placed.focus⟩

end Moves

/-! ## Runs without a hook -/

/-- What can happen to a machine from one moment to the next if no hook is there to refuse a statement: a step, an
answer to a read, or a change of the stop flag by someone else. -/
inductive Unhooked : Machine → Machine → Prop
  | step (m : Machine) : Unhooked m m.step.1
  | answer (m : Machine) (reply : Reply) : Unhooked m (m.answer reply)
  | flag (m : Machine) (stopped : Bool) : Unhooked m { m with stopped := stopped }

section Runs

variable {m m' : Machine}

/-- **A run without a hook keeps what the machine holds placed.** -/
theorem Pinned.run (h : m.Pinned S) (hr : Relation.ReflTransGen Unhooked m m') : m'.Pinned S := by
  induction hr with
  | refl => exact h
  | tail _ hu ih =>
    cases hu with
    | step => exact ih.step
    | answer reply => exact ih.answer reply
    | flag stopped => exact ih.flag stopped

theorem Pinned.failed (h : m.Pinned S) {d : Diagnostic} (hf : m.finished? = some (.error d)) :
    ∃ span, d.span = some span ∧ S span := by
  have hfocus := h.placed.focus
  unfold finished? at hf
  split at hf <;> cases hf
  rename_i hm
  rwa [hm] at hfocus

/-- A program that sets out has its places in its text only. -/
theorem pinned_begin (registry : Registry) (config : Config) (entropy : Random) {program : Program}
    (hp : ∀ x ∈ Stmt.spansOf program, S x) : ((config.machine registry entropy).begin program).Pinned S := by
  refine ⟨⟨⟨sound_install (config.random entropy) fun _ _ _ => trivial, trivial, [.program 0 program], rfl, ?_⟩, fits_nil⟩,
    ⟨?_⟩, trivial⟩
  · exact List.forall_mem_singleton.2 (fits_code (Stmt.all_placed_of_mem hp))
  · exact List.forall_mem_singleton.2 (List.forall_mem_nil _)

/-- The hook that does nothing is no hook. -/
theorem advance_idle (m : Machine) (s : Unit × Console) :
    (∃ s' m', m.advance Hook.idle.observer s = .going s' m' ∧ Unhooked m m') ∨
      ∃ s', m.advance Hook.idle.observer s = .resting s' m := by
  unfold advance
  split
  · split
    · exact .inl ⟨_, _, rfl, .answer m _⟩
    · exact .inr ⟨_, rfl⟩
  · split
    · exact .inr ⟨_, rfl⟩
    · have hstep := Unhooked.step m
      generalize m.step = r at hstep
      obtain ⟨m₁, event⟩ := r
      cases event with
      | none => exact .inl ⟨_, _, rfl, hstep⟩
      | some e => cases e <;> exact .inl ⟨_, _, rfl, hstep⟩

theorem unhooked_of_run : ∀ {fuel : Nat} {s s' : Unit × Console} {m : Machine},
    m.run Hook.idle.observer fuel s = some (s', m') → Relation.ReflTransGen Unhooked m m'
  | 0, _, _, _, hr => by cases hr
  | fuel + 1, s, s', m, hr => by
    rw [Machine.run] at hr
    rcases m.advance_idle s with ⟨s₁, m₁, ha, hu⟩ | ⟨s₁, ha⟩
    · rw [ha] at hr
      exact .head hu (unhooked_of_run hr)
    · rw [ha] at hr
      cases hr
      exact .refl

end Runs

end Machine

open Machine in
/-- A text that is executed is run without a hook, from its first statement to its outcome. -/
theorem Session.unhooked_of_execute {s s' : Session} {fuel : Nat} {source : String} {program : Program}
    {result : Except Diagnostic Value} (hc : compile source = .ok program)
    (he : s.execute fuel source = some (result, s')) :
    Relation.ReflTransGen Unhooked (s.machine.begin program) s'.machine ∧ s'.machine.finished? = some result := by
  obtain ⟨hr, hf⟩ := run_of_execute hc he
  exact ⟨unhooked_of_run hr, hf⟩

/-- The diagnostic has a place, which is that of a node of the program and points into its text. -/
def Diagnostic.PointsInto (d : Diagnostic) (source : String) (program : Program) : Prop :=
  ∃ span ∈ Stmt.spansOf program, d.span = some span ∧ span.PointsInto source

open Machine in
/-- **Failures point into the program.** If a run of a text ends in a failure, the failure has a place, and it is that of
a statement or an expression of the program: it lies in the text and is on the line of the first token of the node. So it
is with any console, whether or not the run was told to stop before, and also if the stop flag is set or cleared at any
moment and a read is answered in any way. -/
theorem failure_points_into_program {source : String} {program : Program} (hc : compile source = .ok program)
    (registry : Registry) (config : Config) (entropy : Random) :
    (∀ (console : Console) (stopped : Bool) (fuel : Nat) (d : Diagnostic) (s' : Session),
      ((Session.new registry config console entropy).setStopped stopped).execute fuel source = some (.error d, s') →
        d.PointsInto source program) ∧
    ∀ (m : Machine) (d : Diagnostic),
      Relation.ReflTransGen Unhooked ((config.machine registry entropy).begin program) m →
      m.finished? = some (.error d) → d.PointsInto source program := by
  have hrun : ∀ (m : Machine) (d : Diagnostic),
      Relation.ReflTransGen Unhooked ((config.machine registry entropy).begin program) m →
        m.finished? = some (.error d) → d.PointsInto source program := by
    intro m d hr hf
    have hbegin : ((config.machine registry entropy).begin program).Pinned (· ∈ Stmt.spansOf program) :=
      pinned_begin registry config entropy fun _ hx => hx
    obtain ⟨span, hd, hmem⟩ := (hbegin.run hr).failed hf
    exact ⟨span, hmem, hd, pointsInto_of_compile hc span hmem⟩
  -- A session that executes the text is such a run, once its flag is set as it was before.
  refine ⟨fun console stopped fuel d s' he => ?_, hrun⟩
  obtain ⟨hr, hf⟩ := Session.unhooked_of_execute hc he
  exact hrun s'.machine d (.head (.flag _ stopped) hr) hf

/-- A function fails that is called further down. -/
def failsInside : String := "function f() \x7b\n  return y;\n\x7d\nf();\n"

/-- The tokens of `failsInside`. -/
def failsInsideTokens : List Token :=
  [⟨.function, "function", none, ⟨0, 8, 1⟩⟩, ⟨.identifier, "f", none, ⟨9, 10, 1⟩⟩,
    ⟨.leftParen, "(", none, ⟨10, 11, 1⟩⟩, ⟨.rightParen, ")", none, ⟨11, 12, 1⟩⟩,
    ⟨.leftBrace, "\x7b", none, ⟨13, 14, 1⟩⟩, ⟨.return, "return", none, ⟨17, 23, 2⟩⟩,
    ⟨.identifier, "y", none, ⟨24, 25, 2⟩⟩, ⟨.semicolon, ";", none, ⟨25, 26, 2⟩⟩,
    ⟨.rightBrace, "\x7d", none, ⟨27, 28, 3⟩⟩, ⟨.identifier, "f", none, ⟨29, 30, 4⟩⟩,
    ⟨.leftParen, "(", none, ⟨30, 31, 4⟩⟩, ⟨.rightParen, ")", none, ⟨31, 32, 4⟩⟩,
    ⟨.semicolon, ";", none, ⟨32, 33, 4⟩⟩, .eof ⟨34, 34, 5⟩]

/-- The tree of `failsInside`. -/
def failsInsideProgram : Program :=
  [.function "f" [] [.leave (some (.name "y" ⟨24, 25, 2⟩)) ⟨17, 26, 2⟩] ⟨0, 28, 1⟩,
    .expr (.call (.name "f" ⟨29, 30, 4⟩) [] ⟨29, 32, 4⟩) ⟨29, 33, 4⟩]

theorem compile_failsInside : compile failsInside = .ok failsInsideProgram := by
  have hscan : scan failsInside = .ok failsInsideTokens := (scan_eq_scanWithin _).trans rfl
  rw [compile_of_scan hscan]
  rfl

/-- The call is on the fourth line, but the failure is at the name in the function. -/
theorem failure_points_into_program_failsInside : ∃ (d : Diagnostic) (s' : Session),
    ((Session.new .standard .default (.script (.ofInputs []))).setStopped false).execute 20 failsInside =
      some (.error d, s') ∧
    d.span = some ⟨24, 25, 2⟩ ∧ d.PointsInto failsInside failsInsideProgram := by
  have h : (((Session.new .standard .default (.script (.ofInputs []))).setStopped false).execute 20 failsInside).map
      (fun r => (r.1.map fun _ => ()).mapError Diagnostic.span) = some (.error (some ⟨24, 25, 2⟩)) := by
    rw [Session.execute_ok compile_failsInside]
    decide +kernel
  obtain ⟨⟨result, s'⟩, he, hspan⟩ := Option.map_eq_some_iff.1 h
  cases result with
  | ok v => cases hspan
  | error d =>
    exact ⟨d, s', he, Except.error.inj hspan, (failure_points_into_program compile_failsInside _ _ _).1 _ _ _ d s' he⟩

end StepScript
