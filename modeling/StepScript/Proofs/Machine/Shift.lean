import StepScript.Proofs.Machine.Moves

/-!
# How work moves from place to place

`Shift m m'` says all that a move can do to the work and the place of a machine: it begins work where it stands, it
enters a frame, it hands something to the innermost piece of pending work, it goes on with the next statement of a
row, or it leaves a block or a call.

* Every move of a machine at work is such a shift (`Working.shift`).
* As many calls are in progress as pieces of pending work are calls (`Shift.tallied`), and a call stays pending until it
  is over (`Shift.inCall`).
-/

namespace StepScript

namespace Pending

/-- Whether a piece of pending work goes on in a frame of its own, which it leaves at its end. -/
def isScope : Pending → Bool
  | block _ _ | call _ _ => true
  | _ => false

/-- Whether a piece of pending work is a call in progress. -/
def isCall : Pending → Bool
  | call _ _ => true
  | _ => false

/-- Whether a piece of pending work is the rest of a program. -/
def isProgram : Pending → Bool
  | program _ _ => true
  | _ => false

/-- Whether a piece of pending work is a row of statements, to go on with one after the other. -/
def isRow : Pending → Bool
  | block _ _ | call _ _ | program _ _ => true
  | _ => false

/-- Whether a piece of pending work may bind names in the frame that it goes on in. -/
def mayBind : Pending → Bool
  | reply _ _ => false
  | _ => true

theorem isCall_of_not_isScope {w : Pending} (h : w.isScope = false) : w.isCall = false := by
  cases w with
  | block | call => cases h
  | _ => rfl

/-- What is no row of statements is neither a scope nor a program. -/
theorem of_not_isRow {w : Pending} (h : w.isRow = false) : w.isScope = false ∧ w.isProgram = false := by
  cases w with
  | block | call | program => cases h
  | _ => exact ⟨rfl, rfl⟩

theorem exit_of_not_isScope {w : Pending} (h : w.isScope = false) (place : Place) : w.exit place = place := by
  cases w with
  | block | call => cases h
  | _ => rfl

end Pending

namespace Focus

/-- Whether a focus may bind names in the current frame. A block and a call have frames of their own. -/
def mayBind : Focus → Bool
  | start s | exec s => !s.isBlock
  | eval _ => true
  | _ => false

/-- Whether a focus is a call to be made. -/
def isApply : Focus → Bool
  | apply _ _ _ => true
  | _ => false

/-- Whether a focus has something for the pending work, now or when a line comes. -/
def isDue : Focus → Bool
  | start _ | exec _ | eval _ | apply _ _ _ => false
  | _ => true

theorem not_isDue_of_isApply {f : Focus} (h : f.isApply = true) : f.isDue = false := by
  cases f with
  | apply => rfl
  | _ => cases h

/-- An outcome binds no names itself. -/
theorem mayBind_of_isOutcome {f : Focus} (h : f.isOutcome = true) : f.mayBind = false := by
  cases f with
  | start | exec | eval => cases h
  | _ => rfl

end Focus

namespace Machine

/-- Work is begun on top of all that is pending, at the same place and with no row of statements. If not `binds`, it
binds no names there. -/
structure Begun (binds : Bool) (m : Machine) (ws : List Pending) (m' : Machine) : Prop where
  place : m'.place = m.place
  pending : m'.pending = ws ++ m.pending
  rowless : ∀ w ∈ ws, w.isRow = false
  idle : binds = false → m'.focus.mayBind = false ∧ ∀ w ∈ ws, w.mayBind = false

/-- What a move does to the work and the place of a machine. -/
inductive Shift (m m' : Machine) : Prop
  | look {ws : List Pending} : Begun m.focus.mayBind m ws m' → Shift m m'
  | enter {w : Pending} : w.isScope = true → m'.pending = w :: m.pending → m'.here = m.store.scopes.size →
      w.exit m'.place = m.place → m'.depth = m.depth + w.isCall.toNat → (w.isCall = true → m.focus.isApply = true) →
      m'.focus.mayBind = false → Shift m m'
  | hand {w : Pending} {rest ws : List Pending} : m.focus.isDue = true → m.pending = w :: rest → w.isScope = false →
      Begun w.mayBind { m with pending := rest } ws m' → Shift m m'
  /-- A row of statements goes on with the next one. -/
  | next {w w' : Pending} {rest : List Pending} : m.focus.isDue = true → m.pending = w :: rest →
      m'.pending = w' :: rest → w.mayBind = true → w'.isCall = w.isCall → w'.isProgram = w.isProgram →
      (∀ place, w'.exit place = w.exit place) → m'.place = m.place → Shift m m'
  | leave {w : Pending} {rest : List Pending} : m.focus.isDue = true → m.pending = w :: rest → w.isScope = true →
      m'.pending = rest → m'.place = w.exit m.place → m'.focus.isOutcome = true → Shift m m'

/-! ## The small operations of a step -/

section Operations

variable {m : Machine} {b : Bool}

/-- Nothing is begun but what the focus says. -/
theorem begun_nothing {m' : Machine} (hp : m'.pending = m.pending) (hl : m'.place = m.place)
    (hf : b = false → m'.focus.mayBind = false) : Begun b m [] m' :=
  ⟨hl, hp, by simp, fun hb => ⟨hf hb, by simp⟩⟩

theorem begun_turn {f : Focus} (hf : b = false → f.mayBind = false) : Begun b m [] (m.turn f) :=
  begun_nothing rfl rfl hf

theorem begun_push {f : Focus} {w : Pending} (hw : w.isRow = false)
    (hb : b = false → f.mayBind = false ∧ w.mayBind = false) : Begun b m [w] (m.push f w) := by
  refine ⟨rfl, rfl, ?_, ?_⟩
  · intro v hv
    rw [List.mem_singleton.1 hv]
    exact hw
  · intro h
    refine ⟨(hb h).1, ?_⟩
    intro v hv
    rw [List.mem_singleton.1 hv]
    exact (hb h).2

/-- Where names may be bound, any focus will do. -/
theorem begun_turn_free {f : Focus} : Begun true m [] (m.turn f) :=
  begun_turn fun h => absurd h.symm Bool.false_ne_true

theorem begun_push_free {f : Focus} {w : Pending} (hw : w.isRow = false) : Begun true m [w] (m.push f w) :=
  begun_push hw fun h => absurd h.symm Bool.false_ne_true

theorem begun_raise (span : Span) (f : RuntimeFault) : Begun b m [] (m.raise span f) := begun_turn fun _ => rfl

theorem begun_settle (span : Span) (r : Except RuntimeFault Value) : Begun b m [] (m.settle span r) := by
  cases r with
  | ok v => exact begun_turn fun _ => rfl
  | error f => exact begun_raise span f

theorem begun_request (keep : Bool) (span : Span) (prompt : String) :
    ∃ ws, Begun b m ws (m.request keep span prompt) := by
  unfold request
  split
  · exact ⟨[], begun_turn fun _ => rfl⟩
  · exact ⟨_, begun_push rfl fun _ => ⟨rfl, rfl⟩⟩

/-- The data of the program have no part in it. -/
theorem Begun.store {ws : List Pending} {m' : Machine} (h : Begun b m ws m') (store : Store) :
    Begun b m ws { m' with store := store } := ⟨h.place, h.pending, h.rowless, h.idle⟩

theorem begun_takeAnswer (span : Span) (a : Answer) : ∃ ws, Begun b m ws (m.takeAnswer span a).1 := by
  cases a with
  | ask prompt => exact begun_request true span prompt
  | fault f => exact ⟨_, begun_raise span f⟩
  | value | write | writeLine | clear => exact ⟨_, begun_turn fun _ => rfl⟩

theorem begun_runBuiltin (builtin : Builtin) (args : List Value) (span : Span) :
    ∃ ws, Begun b m ws (m.runBuiltin builtin args span).1 := by
  obtain ⟨ws, h⟩ := begun_takeAnswer (b := b) (m := { m with store := (builtin.run args m.store).2 }) span
    (builtin.run args m.store).1
  exact ⟨ws, h.place, h.pending, h.rowless, h.idle⟩

end Operations

/-! ## One step -/

section Step

variable {m : Machine}

theorem shift_startStatement {s : Stmt} (hm : m.focus = .start s) : Shift m (m.startStatement s).1 := by
  have hb : m.focus.mayBind = !s.isBlock := by rw [hm]; rfl
  unfold startStatement
  split
  · exact .look (begun_turn fun _ => rfl)
  · split <;> exact .look (begun_turn fun h => hb.symm.trans h)

/-- A statement is begun where the machine stands, unless it is a block. -/
theorem shift_execStatement {s : Stmt} (hm : m.focus = .exec s) : Shift m (m.execStatement s) := by
  have hb : m.focus.mayBind = !s.isBlock := by rw [hm]; rfl
  cases s with
  | block body _ => exact .enter (w := .block m.here body) rfl rfl rfl rfl rfl (fun h => absurd h Bool.false_ne_true) rfl
  | expr | print | assign | branch | loop => exact .look (begun_push rfl fun h => by rw [hb] at h; cases h)
  | input keyword prompt span =>
    cases prompt with
    | none =>
      obtain ⟨ws, h⟩ := begun_request (m := m) (b := m.focus.mayBind) false span defaultPrompt
      exact .look h
    | some e => exact .look (begun_push rfl fun h => by rw [hb] at h; cases h)
  | function => exact .look ((begun_turn fun _ => rfl).store _)
  | leave value _ =>
    cases value with
    | none => exact .look (begun_turn fun _ => rfl)
    | some e => exact .look (begun_push rfl fun h => by rw [hb] at h; cases h)

theorem begun_evalExpression (e : Expr) : ∃ ws, Begun true m ws (m.evalExpression e) := by
  cases e with
  | name x span =>
    simp only [evalExpression]
    split
    · exact ⟨_, begun_turn_free⟩
    · exact ⟨_, begun_raise span _⟩
  | array items _ =>
    cases items with
    | nil => exact ⟨_, (begun_turn (f := .give (.array _)) fun _ => rfl).store _⟩
    | cons e rest => exact ⟨_, begun_push_free rfl⟩
  | literal | group => exact ⟨_, begun_turn_free⟩
  | assign | binary | logical | unary | call | property | element | setProperty | setElement =>
    exact ⟨_, begun_push_free rfl⟩

/-- A function is entered; everything else is called where the machine stands. -/
theorem shift_applyValue {callee : Value} {args : List Value} {span : Span} (hm : m.focus = .apply callee args span) :
    Shift m (m.applyValue callee args span).1 := by
  have hbuiltin : ∀ builtin, Shift m (m.runBuiltin builtin args span).1 := by
    intro builtin
    obtain ⟨ws, h⟩ := begun_runBuiltin (m := m) (b := m.focus.mayBind) builtin args span
    exact .look h
  unfold applyValue
  split
  · split
    · split
      · exact hbuiltin _
      · exact .look (begun_raise span _)
    · exact hbuiltin _
  · rename_i f
    split
    · exact .look (begun_raise span _)
    · split
      · exact .look (begun_raise span _)
      · refine .enter (w := .call m.here f.body) rfl rfl rfl ?_ rfl (fun _ => by rw [hm]; rfl) rfl
        show (m.here, (m.calls.push _).pop) = m.place
        rw [Calls.pop_push]
        rfl
  · exact .look (begun_raise span _)

theorem begun_takeValue (v : Value) {w : Pending} (hw : w.takes = .value) :
    ∃ ws, Begun true m ws (m.takeValue v w).1 := by
  cases w with
  | reply | block | again | call | program => cases hw
  | discard =>
    simp only [takeValue]
    split <;> exact ⟨_, begun_nothing rfl rfl fun _ => rfl⟩
  | write newline => cases newline <;> exact ⟨_, begun_turn_free⟩
  | prompt span => exact begun_request false span _
  | bind x => exact ⟨_, (begun_turn (f := .done) fun _ => rfl).store _⟩
  | choose yes no =>
    simp only [takeValue]
    split
    · exact ⟨_, begun_turn_free⟩
    · split <;> exact ⟨_, begun_turn_free⟩
  | test condition body =>
    simp only [takeValue]
    split
    · exact ⟨_, begun_push_free rfl⟩
    · exact ⟨_, begun_turn_free⟩
  | returning => exact ⟨_, begun_turn_free⟩
  | assign x => exact ⟨_, (begun_turn (f := .give v) fun _ => rfl).store _⟩
  | combine | unary | property | index => exact ⟨_, begun_settle _ _⟩
  | logical op right =>
    simp only [takeValue]
    split <;> exact ⟨_, begun_turn_free⟩
  | callee args span =>
    cases args with
    | nil => exact ⟨_, begun_turn_free⟩
    | cons e rest => exact ⟨_, begun_push_free rfl⟩
  | argument callee before rest span =>
    cases rest with
    | nil => exact ⟨_, begun_turn_free⟩
    | cons e rest => exact ⟨_, begun_push_free rfl⟩
  | item before rest =>
    cases rest with
    | nil => exact ⟨_, (begun_turn (f := .give (.array _)) fun _ => rfl).store _⟩
    | cons e rest => exact ⟨_, begun_push_free rfl⟩
  | right | object | setIndex => exact ⟨_, begun_push_free rfl⟩
  | setProperty x span => cases v <;> exact ⟨_, begun_raise span _⟩
  | setObject index value span =>
    simp only [takeValue]
    split
    · exact ⟨_, begun_raise span _⟩
    · exact ⟨_, begun_push_free rfl⟩
  | setValue object index span =>
    simp only [takeValue]
    split
    · exact ⟨_, (begun_turn (f := .give v) fun _ => rfl).store _⟩
    · exact ⟨_, begun_raise span _⟩

theorem mayBind_of_takes_value {w : Pending} (hw : w.takes = .value) : w.isScope = false ∧ w.mayBind = true := by
  cases w with
  | reply | block | again | call | program => cases hw
  | _ => exact ⟨rfl, rfl⟩

theorem shift_afterStatement (hm : m.focus = .done) {w : Pending} {rest : List Pending} (hp : m.pending = w :: rest) :
    Shift m (({ m with pending := rest } : Machine).afterStatement w) := by
  have hd : m.focus.isDue = true := by rw [hm]; rfl
  have hb : m.focus.mayBind = false := by rw [hm]; rfl
  have ho : m.focus.isOutcome = true := by rw [hm]; rfl
  cases w with
  | block outer more =>
    cases more with
    | nil => exact .leave hd hp rfl rfl rfl ho
    | cons s more => exact @Shift.next m _ _ (.block outer more) _ hd hp rfl rfl rfl rfl (fun _ => rfl) rfl
  | call outer more =>
    cases more with
    | nil => exact .leave hd hp rfl rfl rfl rfl
    | cons s more => exact @Shift.next m _ _ (.call outer more) _ hd hp rfl rfl rfl rfl (fun _ => rfl) rfl
  | again condition body => exact .hand hd hp rfl (begun_push_free rfl)
  | program index more =>
    cases more with
    | nil => exact .hand hd hp rfl (begun_nothing rfl rfl fun _ => rfl)
    | cons s more => exact @Shift.next m _ _ (.program (index + 1) more) _ hd hp rfl rfl rfl rfl (fun _ => rfl) rfl
  | _ => exact .hand hd hp rfl (begun_nothing rfl rfl fun _ => hb)

theorem shift_leaveThrough {v : Value} (hm : m.focus = .leave v) {w : Pending} {rest : List Pending}
    (hp : m.pending = w :: rest) : Shift m (({ m with pending := rest } : Machine).leaveThrough v w) := by
  have hd : m.focus.isDue = true := by rw [hm]; rfl
  have hb : m.focus.mayBind = false := by rw [hm]; rfl
  have ho : m.focus.isOutcome = true := by rw [hm]; rfl
  cases w with
  | block outer more => exact .leave hd hp rfl rfl rfl ho
  | call outer more => exact .leave hd hp rfl rfl rfl rfl
  | program index more => exact .hand hd hp rfl (begun_nothing rfl rfl fun _ => rfl)
  | _ => exact .hand hd hp rfl (begun_nothing rfl rfl fun _ => hb)

theorem shift_failThrough {d : Diagnostic} (hm : m.focus = .fail d) {w : Pending} {rest : List Pending}
    (hp : m.pending = w :: rest) : Shift m (({ m with pending := rest } : Machine).failThrough w) := by
  have hd : m.focus.isDue = true := by rw [hm]; rfl
  have hb : m.focus.mayBind = false := by rw [hm]; rfl
  have ho : m.focus.isOutcome = true := by rw [hm]; rfl
  cases w with
  | block outer more => exact .leave hd hp rfl rfl rfl ho
  | call outer more => exact .leave hd hp rfl rfl rfl ho
  | _ => exact .hand hd hp rfl (begun_nothing rfl rfl fun _ => hb)

theorem shift_refl : Shift m m := .look (begun_nothing rfl rfl id)

/-- **What a step does**, if a value is handed only to work that takes one. -/
theorem shift_step (hv : ∀ v w rest, m.focus = .give v → m.pending = w :: rest → w.takes = .value) :
    Shift m m.step.1 := by
  cases hm : m.focus with
  | start s => simp only [step, hm]; exact shift_startStatement hm
  | exec s => simp only [step, hm]; exact shift_execStatement hm
  | eval e =>
    simp only [step, hm]
    obtain ⟨ws, h⟩ := begun_evalExpression (m := m) e
    exact @Shift.look m _ ws (by rw [hm]; exact h)
  | apply callee args span => simp only [step, hm]; exact shift_applyValue hm
  | await prompt => simp only [step, hm]; exact shift_refl
  | give v =>
    cases hp : m.pending with
    | nil => simp only [step, hm, hp]; exact shift_refl
    | cons w rest =>
      rw [step_give hm hp]
      have hw := hv v w rest hm hp
      obtain ⟨ws, h⟩ := begun_takeValue (m := { m with pending := rest }) v hw
      obtain ⟨hs, hb⟩ := mayBind_of_takes_value hw
      exact .hand (by rw [hm]; rfl) hp hs (by rw [hb]; exact h)
  | done =>
    cases hp : m.pending with
    | nil => simp only [step, hm, hp]; exact shift_refl
    | cons w rest => rw [step_done hm hp]; exact shift_afterStatement hm hp
  | leave v =>
    cases hp : m.pending with
    | nil => simp only [step, hm, hp]; exact shift_refl
    | cons w rest => rw [step_leave hm hp]; exact shift_leaveThrough hm hp
  | fail d =>
    cases hp : m.pending with
    | nil => simp only [step, hm, hp]; exact shift_refl
    | cons w rest => rw [step_fail hm hp]; exact shift_failThrough hm hp

end Step

/-! ## Moves -/

section Heed

variable (m : Machine) (v : Verdict)

theorem pending_heed : (m.heed v).pending = m.pending := by
  unfold heed
  cases v.course <;> cases v.stop <;> rfl

theorem place_heed : (m.heed v).place = m.place := by
  unfold heed
  cases v.course <;> cases v.stop <;> rfl

theorem store_heed : (m.heed v).store = m.store := by
  unfold heed
  cases v.course <;> cases v.stop <;> rfl

theorem settings_heed : (m.heed v).settings = m.settings := by
  unfold heed
  cases v.course <;> cases v.stop <;> rfl

theorem latest_heed : (m.heed v).latest = m.latest := by
  unfold heed
  cases v.course <;> cases v.stop <;> rfl

/-- A decision leaves the focus alone, or makes a failure of it. -/
theorem focus_heed : (m.heed v).focus = m.focus ∨ ∃ d, (m.heed v).focus = .fail d := by
  unfold heed
  cases v.course with
  | proceed | hold => cases v.stop <;> exact Or.inl rfl
  | refuse d => exact Or.inr ⟨d, rfl⟩

end Heed

section Moves

variable {base : List Pending} {home : Place} {p : Product} {m m' : Machine} {xs : List Shown}

theorem Begun.heed {b : Bool} {ws : List Pending} (h : Begun b m ws m') (v : Verdict) : Begun b m ws (m'.heed v) := by
  refine ⟨(place_heed m' v).trans h.place, (pending_heed m' v).trans h.pending, h.rowless, ?_⟩
  intro hb
  refine ⟨?_, (h.idle hb).2⟩
  rcases focus_heed m' v with hf | ⟨d, hf⟩
  · rw [hf]
    exact (h.idle hb).1
  · rw [hf]
    rfl

/-- A decision about an event moves nothing. -/
theorem Shift.heed (h : Shift m m') (v : Verdict) : Shift m (m'.heed v) := by
  have hp := pending_heed m' v
  have hl := place_heed m' v
  cases h with
  | look h => exact .look (h.heed v)
  | enter hs hw hh hx hd ha hf =>
    refine .enter hs (hp.trans hw) ((congrArg Prod.fst hl).trans hh) (by rw [hl]; exact hx) ?_ ha ?_
    · exact (congrArg (fun place => place.2.depth) hl).trans hd
    · rcases focus_heed m' v with h | ⟨d, h⟩
      · rw [h]
        exact hf
      · rw [h]
        rfl
  | hand hd hw hs h => exact .hand hd hw hs (h.heed v)
  | next hd hw hw' hb hc hr hx hl' => exact .next hd hw (hp.trans hw') hb hc hr hx (hl.trans hl')
  | leave hd hw hs hw' hl' ho =>
    refine .leave hd hw hs (hp.trans hw') (hl.trans hl') ?_
    rcases focus_heed m' v with h | ⟨d, h⟩
    · rw [h]
      exact ho
    · rw [h]
      rfl

/-- A line is handed to the read that waits for it. -/
theorem shift_answer {prompt : String} (hm : m.focus = .await prompt) (r : Reply) : Shift m (m.answer r) := by
  have hd : m.focus.isDue = true := by rw [hm]; rfl
  unfold answer
  split
  · rename_i keep span rest _ hp
    cases r with
    | line text => cases keep <;> exact .hand hd hp rfl (begun_nothing rfl rfl fun _ => rfl)
    | cancelled =>
      dsimp only
      split <;> exact .hand hd hp rfl (begun_nothing rfl rfl fun _ => rfl)
  · exact shift_refl

theorem Move.shift (hm : Move m xs m')
    (hv : ∀ v w rest, m.focus = .give v → m.pending = w :: rest → w.takes = .value) : Shift m m' := by
  cases hm with
  | step hs =>
    have := shift_step hv
    rwa [hs] at this
  | event v hs =>
    have := shift_step hv
    rw [hs] at this
    exact this.heed v
  | answer r hf => exact shift_answer hf r
  | flag stopped => exact .look (begun_nothing rfl rfl id)

/-- A machine at work hands a value only to work that takes one. -/
theorem Working.takes_value (h : Working base home p m) (hb : ¬m.Back base) (v : Value) (w : Pending)
    (rest : List Pending) (hm : m.focus = .give v) (hw : m.pending = w :: rest) : w.takes = .value := by
  obtain ⟨inner, hi, hy, -⟩ := h
  cases inner with
  | nil => exact absurd ⟨hi, by rw [hm]; rfl⟩ hb
  | cons w' inner =>
    rw [hw] at hi
    cases hi
    rw [hm] at hy
    exact hy.1

/-- **Every move of a machine at work is a shift.** -/
theorem Working.shift (h : Working base home p m) (hb : ¬m.Back base) (hm : Move m xs m') : Shift m m' :=
  hm.shift (h.takes_value hb)

/-- If something is handed to a piece of pending work, that piece lies above `base`. -/
def Above (base : List Pending) (m : Machine) : Prop :=
  ∀ w rest, m.focus.isDue = true → m.pending = w :: rest → ∃ inner, rest = inner ++ base

/-- So it is the innermost of the pieces above `base`. -/
theorem Above.top (ha : Above base m) {inner rest : List Pending} {w : Pending} (hi : m.pending = inner ++ base)
    (hd : m.focus.isDue = true) (hw : m.pending = w :: rest) : ∃ more, inner = w :: more ∧ rest = more ++ base := by
  obtain ⟨more, rfl⟩ := ha w rest hd hw
  exact ⟨more, List.append_cancel_right (hi.symm.trans hw), rfl⟩

/-- All that is pending lies above nothing. -/
theorem above_nil : Above [] m := fun _ rest _ _ => ⟨rest, (List.append_nil rest).symm⟩

/-- A machine at work that is not back hands nothing to what was pending before. -/
theorem Working.above (h : Working base home p m) (hp : p ≠ .line) (hb : ¬m.Back base) : Above base m := by
  intro w rest hd hw
  obtain ⟨inner, hi, hy, -⟩ := h
  cases inner with
  | cons w' inner =>
    rw [hw] at hi
    cases hi
    exact ⟨inner, rfl⟩
  | nil =>
    exfalso
    cases hm : m.focus with
    | await prompt =>
      rw [hm] at hy
      exact hp hy.symm
    | start | exec | eval | apply =>
      rw [hm] at hd
      cases hd
    | give | done | leave | fail => exact hb ⟨hi, by rw [hm]; rfl⟩

end Moves

/-! ## Calls in progress -/

section Calls

variable {base : List Pending} {home : Place} {p : Product} {m m' : Machine} {xs : List Shown} {d : Nat}

/-- Above `base` no program was begun, and as many calls are in progress, on top of `d`, as pieces of pending work are
calls. -/
def Tallied (base : List Pending) (d : Nat) (m : Machine) : Prop :=
  ∃ inner, m.pending = inner ++ base ∧ m.depth = d + inner.countP Pending.isCall ∧
    ∀ w ∈ inner, w.isProgram = false

/-- A call that was begun on top of `base` is not over. -/
def InCall (base : List Pending) (m : Machine) : Prop :=
  ∃ inner outer rest, m.pending = inner ++ .call outer rest :: base

theorem countP_isCall_of_rowless {ws : List Pending} (h : ∀ w ∈ ws, w.isRow = false) :
    ws.countP Pending.isCall = 0 := by
  rw [List.countP_eq_zero]
  intro w hw
  rw [Pending.isCall_of_not_isScope (Pending.of_not_isRow (h w hw)).1]
  exact Bool.false_ne_true

theorem depth_of_place (h : m'.place = m.place) : m'.depth = m.depth :=
  congrArg (fun place => place.2.depth) h

/-- At the end of a call there is one call less. -/
theorem depth_of_exit {w : Pending} (h : m'.place = w.exit m.place) : m'.depth = m.depth - w.isCall.toNat := by
  have hd : m'.depth = (w.exit m.place).2.depth := congrArg (fun place => place.2.depth) h
  rw [hd]
  cases w <;> rfl

/-- A shift keeps the tally. -/
theorem Shift.tallied (hs : Shift m m') (ha : Above base m) (h : Tallied base d m) : Tallied base d m' := by
  obtain ⟨inner, hi, hd, hn⟩ := h
  cases hs with
  | @look ws hb =>
    refine ⟨ws ++ inner, by rw [hb.pending, hi, List.append_assoc], ?_, ?_⟩
    · rw [depth_of_place hb.place, hd, List.countP_append, countP_isCall_of_rowless hb.rowless, Nat.zero_add]
    · exact List.forall_mem_append.2 ⟨fun v hv => (Pending.of_not_isRow (hb.rowless v hv)).2, hn⟩
  | @enter w hw hp _ _ hd' _ _ =>
    refine ⟨w :: inner, by rw [hp, hi, List.cons_append], ?_, List.forall_mem_cons.2 ⟨?_, hn⟩⟩
    · rw [hd', hd, List.countP_cons]
      cases w.isCall with
      | false => simp
      | true => exact Nat.add_assoc d _ 1
    · cases w with
      | program => cases hw
      | _ => rfl
  | @hand w rest ws hf hp hw hb =>
    obtain ⟨more, rfl, rfl⟩ := ha.top hi hf hp
    refine ⟨ws ++ more, by rw [hb.pending, List.append_assoc], ?_, ?_⟩
    · have hc := Pending.isCall_of_not_isScope hw
      rw [depth_of_place hb.place, show Machine.depth { m with pending := more ++ base } = m.depth from rfl, hd,
        List.countP_append, countP_isCall_of_rowless hb.rowless, List.countP_cons, hc]
      simp
    · refine List.forall_mem_append.2 ⟨fun v hv => (Pending.of_not_isRow (hb.rowless v hv)).2, ?_⟩
      exact (List.forall_mem_cons.1 hn).2
  | @next w w' rest hf hp hp' _ hc hr _ hl =>
    obtain ⟨more, rfl, rfl⟩ := ha.top hi hf hp
    obtain ⟨hw, hmore⟩ := List.forall_mem_cons.1 hn
    refine ⟨w' :: more, by rw [hp', List.cons_append], ?_, List.forall_mem_cons.2 ⟨hr.trans hw, hmore⟩⟩
    rw [depth_of_place hl, hd, List.countP_cons, List.countP_cons, hc]
  | @leave w rest hf hp _ hp' hl _ =>
    obtain ⟨more, rfl, rfl⟩ := ha.top hi hf hp
    refine ⟨more, hp', ?_, (List.forall_mem_cons.1 hn).2⟩
    rw [depth_of_exit hl, hd, List.countP_cons]
    cases w.isCall <;> simp

/-- A shift keeps a call in progress, or ends it. -/
theorem Shift.inCall (hs : Shift m m') (h : InCall base m) : InCall base m' ∨ m'.Back base := by
  obtain ⟨inner, outer, rest, hi⟩ := h
  cases hs with
  | @look ws hb => exact Or.inl ⟨ws ++ inner, outer, rest, by rw [hb.pending, hi, List.append_assoc]⟩
  | @enter w _ hp => exact Or.inl ⟨w :: inner, outer, rest, by rw [hp, hi, List.cons_append]⟩
  | @hand w more ws _ hp hw hb =>
    rw [hi] at hp
    cases inner with
    | nil =>
      cases hp
      cases hw
    | cons w' inner =>
      rw [List.cons_append] at hp
      obtain ⟨rfl, rfl⟩ := List.cons.inj hp
      exact Or.inl ⟨ws ++ inner, outer, rest, by rw [hb.pending, List.append_assoc]⟩
  | @next w w' more _ hp hp' _ hc =>
    rw [hi] at hp
    cases inner with
    | nil =>
      cases hp
      cases w' with
      | call outer' rest' => exact Or.inl ⟨[], outer', rest', hp'⟩
      | _ => cases hc
    | cons w'' inner =>
      rw [List.cons_append] at hp
      obtain ⟨rfl, rfl⟩ := List.cons.inj hp
      exact Or.inl ⟨w' :: inner, outer, rest, by rw [hp', List.cons_append]⟩
  | @leave w more _ hp _ hp' _ ho =>
    rw [hi] at hp
    cases inner with
    | nil =>
      cases hp
      exact Or.inr ⟨hp', ho⟩
    | cons w' inner =>
      cases hp
      exact Or.inl ⟨inner, outer, rest, hp'⟩

end Calls

end Machine

end StepScript
