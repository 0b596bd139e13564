import StepScript.Proofs.Machine.Home
import StepScript.Proofs.Machine.Shift

/-!
# Where calls are made

A call expression evaluates its callee and its arguments, and then the call is made at the place of the expression. So
for every call that a machine is about to make there is an earlier moment, with the same work pending, at which the
machine was about to evaluate a call expression of that place (`Trail.traced`), unless the call is what it was asked for
in the first place.

Only a call expression puts up work that knows of a place to call from, and only such work makes calls: all else is
`Clear` of them.
-/

namespace StepScript

/-- The place that a piece of pending work will make a call from. -/
def Pending.site? : Pending → Option Span
  | callee _ span | argument _ _ _ span => some span
  | _ => none

namespace Machine

/-- On top of `rest` there is no work that makes a call, and no call is about to be made. -/
structure Clear (rest : List Pending) (m : Machine) : Prop where
  work : ∃ ws, m.pending = ws ++ rest ∧ ∀ w ∈ ws, w.site? = none
  focus : m.focus.isApply = false

section Operations

variable {m : Machine}

theorem clear_same {m' : Machine} (hp : m'.pending = m.pending) (hf : m'.focus.isApply = false) :
    Clear m.pending m' := ⟨⟨[], hp, List.forall_mem_nil _⟩, hf⟩

theorem clear_turn {f : Focus} (hf : f.isApply = false) : Clear m.pending (m.turn f) := clear_same rfl hf

theorem clear_push {m' : Machine} {w : Pending} (hp : m'.pending = w :: m.pending) (hw : w.site? = none)
    (hf : m'.focus.isApply = false) : Clear m.pending m' := ⟨⟨[w], hp, List.forall_mem_singleton.2 hw⟩, hf⟩

theorem clear_raise (span : Span) (f : RuntimeFault) : Clear m.pending (m.raise span f) := clear_turn rfl

theorem clear_settle (span : Span) (r : Except RuntimeFault Value) : Clear m.pending (m.settle span r) := by
  cases r with
  | ok v => exact clear_turn rfl
  | error f => exact clear_raise span f

theorem clear_request (keep : Bool) (span : Span) (prompt : String) :
    Clear m.pending (m.request keep span prompt) := by
  unfold request
  split
  · exact clear_turn rfl
  · exact clear_push rfl rfl rfl

theorem clear_startStatement (s : Stmt) : Clear m.pending (m.startStatement s).1 := by
  unfold startStatement
  split
  · exact clear_turn rfl
  · split <;> exact clear_turn rfl

theorem clear_execStatement (s : Stmt) : Clear m.pending (m.execStatement s) := by
  cases s with
  | expr | print | assign | block | branch | loop => exact clear_push rfl rfl rfl
  | input keyword prompt span =>
    cases prompt with
    | none => exact clear_request false span _
    | some e => exact clear_push rfl rfl rfl
  | function x params body span => exact clear_same rfl rfl
  | leave value span =>
    cases value with
    | none => exact clear_turn rfl
    | some e => exact clear_push rfl rfl rfl

/-- No expression but a call puts up work that makes a call. -/
theorem clear_evalExpression {e : Expr} (he : ∀ callee args span, e ≠ .call callee args span) :
    Clear m.pending (m.evalExpression e) := by
  cases e with
  | call callee args span => exact absurd rfl (he callee args span)
  | literal | group => exact clear_turn rfl
  | name x span =>
    simp only [evalExpression]
    split
    · exact clear_turn rfl
    · exact clear_raise span _
  | array items span =>
    cases items with
    | nil => exact clear_same rfl rfl
    | cons e rest => exact clear_push rfl rfl rfl
  | assign | binary | logical | unary | property | element | setProperty | setElement =>
    exact clear_push rfl rfl rfl

theorem clear_runBuiltin (b : Builtin) (args : List Value) (span : Span) :
    Clear m.pending (m.runBuiltin b args span).1 := by
  show Clear m.pending (takeAnswer { m with store := (b.run args m.store).2 } span (b.run args m.store).1).1
  cases (b.run args m.store).1 with
  | ask prompt => exact clear_request (m := { m with store := (b.run args m.store).2 }) true span prompt
  | _ => exact clear_same rfl rfl

theorem clear_applyValue (callee : Value) (args : List Value) (span : Span) :
    Clear m.pending (m.applyValue callee args span).1 := by
  unfold applyValue
  split
  · split
    · split
      · exact clear_runBuiltin _ args span
      · exact clear_raise span _
    · exact clear_runBuiltin _ args span
  · split
    · exact clear_raise span _
    · split
      · exact clear_raise span _
      · exact clear_push rfl rfl rfl
  · exact clear_raise span _

/-- A value that is handed to other work makes no call. -/
theorem clear_takeValue (v : Value) {w : Pending} (hw : w.site? = none) : Clear m.pending (m.takeValue v w).1 := by
  cases w with
  | callee | argument => cases hw
  | prompt span => exact clear_request false span _
  | combine | unary | property | index => exact clear_settle _ _
  | discard | logical =>
    simp only [takeValue]
    split
    · exact clear_same rfl rfl
    · exact clear_turn rfl
  | test condition body =>
    simp only [takeValue]
    split
    · exact clear_push rfl rfl rfl
    · exact clear_turn rfl
  | choose yes no =>
    simp only [takeValue]
    split
    · exact clear_turn rfl
    · split <;> exact clear_turn rfl
  | write newline => cases newline <;> exact clear_turn rfl
  | item before rest =>
    cases rest with
    | nil => exact clear_same rfl rfl
    | cons e rest => exact clear_push rfl rfl rfl
  | setProperty x span => cases v <;> exact clear_raise span _
  | setObject index value span =>
    simp only [takeValue]
    split
    · exact clear_raise span _
    · exact clear_push rfl rfl rfl
  | setValue object index span =>
    simp only [takeValue]
    split
    · exact clear_same rfl rfl
    · exact clear_raise span _
  | bind | assign => exact clear_same rfl rfl
  | right | object | setIndex => exact clear_push rfl rfl rfl
  | reply | block | again | returning | call | program => exact clear_turn rfl

theorem clear_afterStatement (hm : m.focus.isApply = false) (w : Pending) : Clear m.pending (m.afterStatement w) := by
  cases w with
  | block outer rest =>
    cases rest with
    | nil => exact clear_same rfl hm
    | cons s rest => exact clear_push rfl rfl rfl
  | call outer rest =>
    cases rest with
    | nil => exact clear_same rfl rfl
    | cons s rest => exact clear_push rfl rfl rfl
  | program index rest =>
    cases rest with
    | nil => exact clear_same rfl rfl
    | cons s rest => exact clear_push rfl rfl rfl
  | again condition body => exact clear_push rfl rfl rfl
  | _ => exact clear_same rfl hm

theorem clear_leaveThrough (hm : m.focus.isApply = false) (v : Value) (w : Pending) :
    Clear m.pending (m.leaveThrough v w) := by
  cases w with
  | call outer rest => exact clear_same rfl rfl
  | program index rest => exact clear_same rfl rfl
  | _ => exact clear_same rfl hm

theorem clear_failThrough (hm : m.focus.isApply = false) (w : Pending) : Clear m.pending (m.failThrough w) := by
  cases w <;> exact clear_same rfl hm

end Operations

/-! ## From a call expression to the call -/

/-- The moments of a run, the oldest first and without the present one, none of them back at `base`. -/
inductive Trail (base : List Pending) (m₀ : Machine) : List Machine → Machine → Prop
  | refl : Trail base m₀ [] m₀
  | move {past : List Machine} {m m' : Machine} {xs : List Shown} : Trail base m₀ past m → ¬m.Back base →
      Move m xs m' → Trail base m₀ (past ++ [m]) m'

/-- At a past moment, with `rest` pending, a call expression of the given place was to be evaluated. -/
def Evaluated (past : List Machine) (span : Span) (rest : List Pending) : Prop :=
  ∃ e ∈ past, e.pending = rest ∧ ∃ callee args, e.focus = .eval (.call callee args span)

/-- Work on top of `base` that makes calls was put up by call expressions. -/
inductive Sited (past : List Machine) (base : List Pending) : List Pending → Prop
  | nil : Sited past base []
  | cons {w : Pending} {inner : List Pending} : (∀ span, w.site? = some span → Evaluated past span (inner ++ base)) →
      Sited past base inner → Sited past base (w :: inner)

/-- So was the call that is about to be made, unless it is the task itself. -/
structure Traced (t : Task) (base : List Pending) (past : List Machine) (m : Machine) : Prop where
  work : ∃ inner, m.pending = inner ++ base ∧ Sited past base inner
  focus : ∀ callee args span, m.focus = .apply callee args span →
    Evaluated past span m.pending ∨ t = .call callee args span

section Traced

variable {t : Task} {base inner : List Pending} {past : List Machine} {m m' : Machine} {xs : List Shown}

theorem Evaluated.later {span : Span} {rest : List Pending} (h : Evaluated past span rest) (m : Machine) :
    Evaluated (past ++ [m]) span rest := by
  obtain ⟨e, he, hp, hf⟩ := h
  exact ⟨e, List.mem_append_left [m] he, hp, hf⟩

theorem Sited.later (h : Sited past base inner) (m : Machine) : Sited (past ++ [m]) base inner := by
  induction h with
  | nil => exact .nil
  | cons hw _ ih => exact .cons (fun span hs => (hw span hs).later m) ih

theorem Traced.later (h : Traced t base past m') (m : Machine) : Traced t base (past ++ [m]) m' := by
  obtain ⟨inner, hi, hs⟩ := h.work
  refine ⟨⟨inner, hi, hs.later m⟩, ?_⟩
  intro callee args span hf
  exact (h.focus callee args span hf).imp_left (Evaluated.later · m)

/-- Where nothing new makes a call, nothing changes. -/
theorem Sited.traced (h : Sited past base inner) (hc : Clear (inner ++ base) m') : Traced t base past m' := by
  obtain ⟨ws, hp, hws⟩ := hc.work
  refine ⟨⟨ws ++ inner, by rw [hp, List.append_assoc], ?_⟩, ?_⟩
  · clear hp
    induction ws with
    | nil => exact h
    | cons w ws ih =>
      obtain ⟨hw, hws⟩ := List.forall_mem_cons.1 hws
      refine .cons ?_ (ih hws)
      intro span hs
      rw [hw] at hs
      cases hs
  · intro callee args span hf
    have hn := hc.focus
    rw [hf] at hn
    cases hn

/-- Work that makes a call is put up, or goes on with the next argument. -/
theorem Sited.push (h : Sited past base inner) {w : Pending} {span : Span} (hw : w.site? = some span)
    (he : Evaluated past span (inner ++ base)) (hp : m'.pending = w :: (inner ++ base))
    (hf : m'.focus.isApply = false) : Traced t base past m' := by
  refine ⟨⟨w :: inner, hp, .cons ?_ h⟩, ?_⟩
  · intro span' hs
    rw [hw] at hs
    cases hs
    exact he
  · intro callee args span' hm
    rw [hm] at hf
    cases hf

/-- A value is handed to work that makes a call: the call is made from its place, or there is another argument. -/
theorem Sited.takeValue (h : Sited past base inner) (hm : m.pending = inner ++ base) (v : Value) {w : Pending}
    (hw : ∀ span, w.site? = some span → Evaluated past span (inner ++ base)) :
    Traced t base past (m.takeValue v w).1 := by
  -- The call is made with what is pending below the work.
  have happly : ∀ {span : Span}, w.site? = some span → ∀ callee args,
      Traced t base past (m.turn (.apply callee args span)) := by
    intro span hs callee args
    refine ⟨⟨inner, hm, h⟩, ?_⟩
    rintro _ _ _ ⟨⟩
    refine Or.inl ?_
    show Evaluated past span m.pending
    rw [hm]
    exact hw span hs
  cases w with
  | callee args span =>
    cases args with
    | nil => exact happly rfl v []
    | cons e rest =>
      exact h.push (w := .argument v [] rest span) rfl (hw span rfl)
        (congrArg (Pending.argument v [] rest span :: ·) hm) rfl
  | argument f before rest span =>
    cases rest with
    | nil => exact happly rfl f (v :: before).reverse
    | cons e rest =>
      exact h.push (w := .argument f (v :: before) rest span) rfl (hw span rfl)
        (congrArg (Pending.argument f (v :: before) rest span :: ·) hm) rfl
  | _ =>
    refine h.traced ?_
    rw [← hm]
    exact clear_takeValue v rfl

/-- **A step keeps track of the places of calls.** -/
theorem Traced.step (h : Traced t base past m) (ha : Above base m) : Traced t base (past ++ [m]) m.step.1 := by
  obtain ⟨inner, hi, hs⟩ := h.work
  have hlater := hs.later m
  have hsame := h.later m
  have hclear : ∀ {m' : Machine}, Clear m.pending m' → Traced t base (past ++ [m]) m' := by
    intro m' hc
    rw [hi] at hc
    exact hlater.traced hc
  -- What is handed something is the innermost piece above the base.
  have htop : ∀ {w rest}, m.focus.isDue = true → m.pending = w :: rest → ∃ more, rest = more ++ base ∧
      Sited (past ++ [m]) base more ∧ ∀ span, w.site? = some span → Evaluated (past ++ [m]) span (more ++ base) := by
    intro w rest hd hw
    obtain ⟨more, rfl, rfl⟩ := ha.top hi hd hw
    cases hlater with
    | cons hsite hmore => exact ⟨more, rfl, hmore, hsite⟩
  cases hm : m.focus with
  | start s =>
    simp only [Machine.step, hm]
    exact hclear (clear_startStatement s)
  | exec s =>
    simp only [Machine.step, hm]
    exact hclear (clear_execStatement s)
  | eval e =>
    simp only [Machine.step, hm]
    by_cases he : ∃ callee args span, e = .call callee args span
    · obtain ⟨callee, args, span, rfl⟩ := he
      have hnow : Evaluated (past ++ [m]) span (inner ++ base) :=
        ⟨m, List.mem_append_right past (List.mem_singleton.2 rfl), hi, callee, args, hm⟩
      exact hlater.push (w := .callee args span) rfl hnow (congrArg (Pending.callee args span :: ·) hi) rfl
    · exact hclear (clear_evalExpression fun callee args span heq => he ⟨callee, args, span, heq⟩)
  | apply callee args span =>
    simp only [Machine.step, hm]
    exact hclear (clear_applyValue callee args span)
  | await prompt =>
    simp only [Machine.step, hm]
    exact hsame
  | give v =>
    cases hp : m.pending with
    | nil =>
      simp only [Machine.step, hm, hp]
      exact hsame
    | cons w rest =>
      obtain ⟨more, hmore, hsited, hsite⟩ := htop (by rw [hm]; rfl) hp
      rw [step_give hm hp]
      exact hsited.takeValue (m := { m with pending := rest }) hmore v hsite
  | done =>
    cases hp : m.pending with
    | nil =>
      simp only [Machine.step, hm, hp]
      exact hsame
    | cons w rest =>
      obtain ⟨more, rfl, hsited, -⟩ := htop (by rw [hm]; rfl) hp
      rw [step_done hm hp]
      exact hsited.traced (clear_afterStatement (m := { m with pending := more ++ base }) (by rw [hm]; rfl) w)
  | leave v =>
    cases hp : m.pending with
    | nil =>
      simp only [Machine.step, hm, hp]
      exact hsame
    | cons w rest =>
      obtain ⟨more, rfl, hsited, -⟩ := htop (by rw [hm]; rfl) hp
      rw [step_leave hm hp]
      exact hsited.traced (clear_leaveThrough (m := { m with pending := more ++ base }) (by rw [hm]; rfl) v w)
  | fail d =>
    cases hp : m.pending with
    | nil =>
      simp only [Machine.step, hm, hp]
      exact hsame
    | cons w rest =>
      obtain ⟨more, rfl, hsited, -⟩ := htop (by rw [hm]; rfl) hp
      rw [step_fail hm hp]
      exact hsited.traced (clear_failThrough (m := { m with pending := more ++ base }) (by rw [hm]; rfl) w)

/-- A line that is read makes no call. -/
theorem Traced.answer (h : Traced t base past m) (ha : Above base m) {prompt : String} (hm : m.focus = .await prompt)
    (reply : Reply) : Traced t base (past ++ [m]) (m.answer reply) := by
  obtain ⟨inner, hi, hs⟩ := h.work
  have hlater := hs.later m
  unfold Machine.answer
  split
  · rename_i keep span rest hf hp
    obtain ⟨more, rfl, rfl⟩ := ha.top hi (by rw [hm]; rfl) hp
    cases hlater with
    | cons _ hmore =>
      refine hmore.traced ?_
      cases reply with
      | line text =>
        dsimp only
        split <;> exact clear_turn (m := { m with pending := more ++ base }) rfl
      | cancelled =>
        dsimp only
        split <;> exact clear_turn (m := { m with pending := more ++ base }) rfl
  · refine hlater.traced ?_
    rw [← hi]
    exact clear_same rfl (by rw [hm]; rfl)

theorem Traced.heed (h : Traced t base past m) (v : Verdict) : Traced t base past (m.heed v) := by
  refine ⟨?_, ?_⟩
  · rw [pending_heed]
    exact h.work
  · intro callee args span hf
    rw [pending_heed]
    rcases focus_heed m v with hv | ⟨d, hv⟩
    · rw [hv] at hf
      exact h.focus callee args span hf
    · rw [hv] at hf
      cases hf

/-- **A move keeps track of the places of calls.** -/
theorem Traced.move (h : Traced t base past m) (ha : Above base m) (hm : Move m xs m') :
    Traced t base (past ++ [m]) m' := by
  cases hm with
  | step hs =>
    have := h.step ha
    rwa [hs] at this
  | event v hs =>
    have := h.step ha
    rw [hs] at this
    exact this.heed v
  | answer r hf => exact h.answer ha hf r
  | flag stopped =>
    have hlater := h.later m
    exact ⟨hlater.work, hlater.focus⟩

end Traced

section Runs

variable {t : Task} {past : List Machine} {m m' : Machine}

theorem Trail.working (h : Trail m.pending (m.undertake t) past m') : Working m.pending m.place t.product m' := by
  induction h with
  | refl => exact working_undertake m t
  | move _ hb hm ih => exact hm.working ih (Task.product_ne_line t) hb

theorem traced_undertake (m : Machine) (t : Task) : Traced t m.pending [] (m.undertake t) := by
  cases t with
  | statement s => exact Sited.nil.traced (clear_turn rfl)
  | expression e => exact Sited.nil.traced (clear_turn rfl)
  | block body frame => exact Sited.nil.traced (clear_push rfl rfl rfl)
  | program p => exact Sited.nil.traced (clear_push rfl rfl rfl)
  | call callee args span =>
    refine ⟨⟨[], rfl, .nil⟩, ?_⟩
    rintro _ _ _ ⟨⟩
    exact Or.inr rfl

/-- **Calls are made where they stand in the program**, whatever happened before them. -/
theorem Trail.traced (h : Trail m.pending (m.undertake t) past m') : Traced t m.pending past m' := by
  induction h with
  | refl => exact traced_undertake m t
  | move ht hb hm ih =>
    exact ih.move (ht.working.above (Task.product_ne_line t) hb) hm

end Runs

end Machine

end StepScript
