import StepScript.Proofs.Machine.CallSites
import StepScript.Proofs.Machine.Names

/-!
# The calls in progress

A machine keeps a list of calls. Seen from outside, a call of a function is in progress from the moment that it is made
as long as there is more to do than there was then (`ongoing`). The two are the same at every moment of a run, whatever
was called, finished, failed or refused before, and there are never more calls than the settings allow.

* `Turns m m'` says what a move does to the calls and to the work that waits for their ends (`Working.turns`).
* `Nested n inner calls made` pairs the calls in progress with the pieces of pending work that wait for their ends and
  with the moments when they were made. A move keeps the list of calls so paired (`Turns.logged`).
-/

namespace StepScript

namespace Machine

/-- The call of a function that a machine is about to make: the name of the function and the line of the call. Builtins
are no functions in this sense. -/
def called? (m : Machine) : Option Call :=
  match m.focus with
  | .apply (.closure f) _ span => some ⟨f.name, span.line⟩
  | _ => none

/-- Of the past moments of a run, the oldest first, those that made a call which is in progress now: a function was
called there, and from then on there was more to do at every moment, the present one included. -/
def ongoing (now : Machine) : List Machine → List Machine
  | [] => []
  | m :: later =>
    if m.called?.isSome ∧ ∀ l ∈ later ++ [now], m.pending.length < l.pending.length then m :: ongoing now later
    else ongoing now later

/-- One moment later, the calls are in progress that are not over then, and the one that was made. -/
theorem ongoing_append (past : List Machine) (m now : Machine) :
    ongoing now (past ++ [m]) = (ongoing m past).filter (fun c => c.pending.length < now.pending.length) ++
      if m.called?.isSome ∧ m.pending.length < now.pending.length then [m] else [] := by
  induction past with
  | nil => simp [ongoing]
  | cons c later ih =>
    have hall : (∀ l ∈ later ++ [m] ++ [now], c.pending.length < l.pending.length) ↔
        (∀ l ∈ later ++ [m], c.pending.length < l.pending.length) ∧ c.pending.length < now.pending.length := by
      simp only [List.forall_mem_append, List.forall_mem_singleton]
    simp only [List.cons_append, ongoing, ih, hall]
    by_cases hc : c.called?.isSome ∧ ∀ l ∈ later ++ [m], c.pending.length < l.pending.length
    · by_cases hnow : c.pending.length < now.pending.length
      · rw [if_pos ⟨hc.1, hc.2, hnow⟩, if_pos hc, List.filter_cons_of_pos (by simpa using hnow), List.cons_append]
      · rw [if_neg fun h => hnow h.2.2, if_pos hc, List.filter_cons_of_neg (by simpa using hnow)]
    · rw [if_neg fun h => hc ⟨h.1, h.2.1⟩, if_neg hc]

/-! ## What a move does to the calls -/

/-- What a move does to the calls in progress and to the work that waits for their ends. -/
inductive Turns (m m' : Machine) : Prop
  /-- Work is begun; no function is called by that. -/
  | begins (ws : List Pending) : m'.pending = ws ++ m.pending → (∀ w ∈ ws, w.isCall = false) →
      (ws = [] ∨ m.called? = none) → m'.calls = m.calls → Turns m m'
  /-- A function is entered. -/
  | enters {w : Pending} {c : Call} : m.called? = some c → w.isCall = true → m'.pending = w :: m.pending →
      m'.calls = m.calls.push c → m.depth < m.settings.maxCallDepth → Turns m m'
  /-- Something is handed to work that is no call. -/
  | hands (ws : List Pending) {w : Pending} {rest : List Pending} : m.focus.isDue = true → m.pending = w :: rest →
      w.isCall = false →
      m'.pending = ws ++ rest → (∀ w ∈ ws, w.isCall = false) → m'.calls = m.calls → Turns m m'
  /-- A function goes on with its next statement. -/
  | goes {w w' : Pending} {rest : List Pending} : m.focus.isDue = true → m.pending = w :: rest → w'.isCall = w.isCall →
      m'.pending = w' :: rest → m'.calls = m.calls → Turns m m'
  /-- A function ends. -/
  | returns {w : Pending} {rest : List Pending} : m.focus.isDue = true → m.pending = w :: rest → w.isCall = true →
      m'.pending = rest → m'.calls = m.calls.pop → Turns m m'

section Turns

variable {m m' : Machine} {xs : List Shown}

theorem called?_of_isDue (h : m.focus.isDue = true) : m.called? = none := by
  unfold called?
  split
  · rename_i hm
    rw [hm] at h
    cases h
  · rfl

theorem called?_of_not_isApply (h : m.focus.isApply = false) : m.called? = none := by
  unfold called?
  split
  · rename_i hm
    rw [hm] at h
    cases h
  · rfl

/-- A builtin calls no function: it has a line to read, or nothing more to do. -/
theorem turns_runBuiltin (hm : m.called? = none) (b : Builtin) (args : List Value) (span : Span) :
    Turns m (m.runBuiltin b args span).1 := by
  show Turns m (takeAnswer { m with store := (b.run args m.store).2 } span (b.run args m.store).1).1
  cases (b.run args m.store).1 with
  | ask prompt =>
    simp only [takeAnswer, request]
    split
    · exact .begins [] rfl (by simp) (Or.inl rfl) rfl
    · exact .begins [.reply true span] rfl (by simp [Pending.isCall]) (Or.inr hm) rfl
  | _ => exact .begins [] rfl (by simp) (Or.inl rfl) rfl

/-- A call of a function enters it, unless it fails at once. -/
theorem turns_applyValue {callee : Value} {args : List Value} {span : Span} (hm : m.focus = .apply callee args span) :
    Turns m (m.applyValue callee args span).1 := by
  have hraise : ∀ f, Turns m (m.raise span f) := fun f => .begins [] rfl (by simp) (Or.inl rfl) rfl
  cases callee with
  | native f =>
    have hnone : m.called? = none := by rw [called?, hm]
    simp only [applyValue]
    split
    · split
      · exact turns_runBuiltin hnone _ args span
      · exact hraise _
    · exact turns_runBuiltin hnone _ args span
  | closure f =>
    have hcalled : m.called? = some ⟨f.name, span.line⟩ := by rw [called?, hm]
    simp only [applyValue]
    split
    · exact hraise _
    · split
      · exact hraise _
      · rename_i hdepth
        exact .enters (w := .call m.here f.body) hcalled rfl rfl rfl (Nat.not_le.1 hdepth)
  | _ => exact hraise _

/-- A decision about an event leaves the calls alone. -/
theorem Turns.heed (h : Turns m m') (v : Verdict) : Turns m (m'.heed v) := by
  have hp := pending_heed m' v
  have hc : (m'.heed v).calls = m'.calls := congrArg Prod.snd (place_heed m' v)
  cases h with
  | begins ws hw hn hf hl => exact .begins ws (hp.trans hw) hn hf (hc.trans hl)
  | enters hf hw hw' hl hd => exact .enters hf hw (hp.trans hw') (hc.trans hl) hd
  | hands ws hf hw hn hw' hn' hl => exact .hands ws hf hw hn (hp.trans hw') hn' (hc.trans hl)
  | goes hf hw hn hw' hl => exact .goes hf hw hn (hp.trans hw') (hc.trans hl)
  | returns hf hw hn hw' hl => exact .returns hf hw hn (hp.trans hw') (hc.trans hl)

/-- Without a call to be made, what a shift does to the work and the place is all that matters. -/
theorem Shift.turns (hs : Shift m m') (ha : m.focus.isApply = false) : Turns m m' := by
  have hnone := called?_of_not_isApply ha
  have hrowless : ∀ {ws : List Pending}, (∀ w ∈ ws, w.isRow = false) → ∀ w ∈ ws, w.isCall = false := by
    intro ws hws w hw
    exact Pending.isCall_of_not_isScope (Pending.of_not_isRow (hws w hw)).1
  cases hs with
  | look hb => exact .begins _ hb.pending (hrowless hb.rowless) (Or.inr hnone) (congrArg Prod.snd hb.place)
  | @enter w hw hp _ hx _ hcall _ =>
    cases w with
    | block outer rest =>
      exact .begins [.block outer rest] hp (by simp [Pending.isCall]) (Or.inr hnone) (congrArg Prod.snd hx)
    | call outer rest =>
      rw [hcall rfl] at ha
      cases ha
    | _ => cases hw
  | hand hd hw hn hb =>
    exact .hands _ hd hw (Pending.isCall_of_not_isScope hn) hb.pending (hrowless hb.rowless)
      (congrArg Prod.snd hb.place)
  | next hd hw hw' _ hc _ _ hl => exact .goes hd hw hc hw' (congrArg Prod.snd hl)
  | @leave w rest hd hw hs hw' hl _ =>
    cases w with
    | block outer ss => exact .hands [] hd hw rfl hw' (by simp) (congrArg Prod.snd hl)
    | call outer ss => exact .returns hd hw rfl hw' (congrArg Prod.snd hl)
    | _ => cases hs

/-- **What every move of a machine at work does to the calls.** -/
theorem Working.turns {base : List Pending} {home : Place} {p : Product} (h : Working base home p m)
    (hb : ¬m.Back base) (hm : Move m xs m') : Turns m m' := by
  cases ha : m.focus.isApply with
  | false => exact (h.shift hb hm).turns ha
  | true =>
    obtain ⟨callee, args, span, hf⟩ : ∃ callee args span, m.focus = .apply callee args span := by
      cases hf : m.focus with
      | apply callee args span => exact ⟨callee, args, span, rfl⟩
      | _ =>
        rw [hf] at ha
        cases ha
    have happly := turns_applyValue hf
    cases hm with
    | step hs =>
      simp only [step, hf] at hs
      rwa [hs] at happly
    | event v hs =>
      simp only [step, hf] at hs
      rw [hs] at happly
      exact happly.heed v
    | answer r hawait =>
      rw [hf] at hawait
      cases hawait
    | flag stopped => exact .begins [] rfl (by simp) (Or.inl rfl) rfl

end Turns

/-! ## Calls, pending work and moments -/

/-- The calls in progress, the innermost first, with the pieces of pending work above the first `n` that wait for their
ends, and with the moments when they were made. -/
inductive Nested (n : Nat) : List Pending → List Call → List Machine → Prop
  | nil : Nested n [] [] []
  | work {w : Pending} {inner : List Pending} {calls : List Call} {made : List Machine} : w.isCall = false →
      Nested n inner calls made → Nested n (w :: inner) calls made
  | call {w : Pending} {inner : List Pending} {calls : List Call} {made : List Machine} {m : Machine} {c : Call} :
      w.isCall = true → m.called? = some c → m.pending.length = inner.length + n → Nested n inner calls made →
      Nested n (w :: inner) (c :: calls) (m :: made)

section Nested

variable {n : Nat} {inner ws : List Pending} {w w' : Pending} {calls : List Call} {made : List Machine}

/-- There was less pending when a call was made. -/
theorem Nested.lt (h : Nested n inner calls made) : ∀ m ∈ made, m.pending.length < inner.length + n := by
  induction h with
  | nil => simp
  | work _ _ ih =>
    intro m hm
    have := ih m hm
    simp only [List.length_cons]
    omega
  | call _ _ hp _ ih =>
    intro m hm
    simp only [List.length_cons]
    rcases List.mem_cons.1 hm with rfl | hm
    · omega
    · have := ih m hm
      omega

/-- No call is over while there is as much to do. -/
theorem Nested.filter_eq (h : Nested n inner calls made) {k : Nat} (hk : inner.length + n ≤ k) :
    made.filter (fun m => m.pending.length < k) = made := by
  rw [List.filter_eq_self]
  intro m hm
  have := h.lt m hm
  simp only [decide_eq_true_eq]
  omega

theorem Nested.append (h : Nested n inner calls made) (hw : ∀ w ∈ ws, w.isCall = false) :
    Nested n (ws ++ inner) calls made := by
  induction ws with
  | nil => exact h
  | cons w ws ih =>
    obtain ⟨hw, hws⟩ := List.forall_mem_cons.1 hw
    exact .work hw (ih hws)

theorem Nested.replace (h : Nested n (w :: inner) calls made) (hw : w'.isCall = w.isCall) :
    Nested n (w' :: inner) calls made := by
  cases h with
  | work hn h => exact .work (hw.trans hn) h
  | call hc hm hp h => exact .call (hw.trans hc) hm hp h

theorem Nested.pop (h : Nested n (w :: inner) calls made) (hw : w.isCall = false) : Nested n inner calls made := by
  cases h with
  | work _ h => exact h
  | call hc _ _ _ =>
    rw [hw] at hc
    cases hc

/-- The calls are those that were made. -/
theorem Nested.calls_eq (h : Nested n inner calls made) : made.filterMap called? = calls := by
  induction h with
  | nil => rfl
  | work _ _ ih => exact ih
  | call _ hm _ _ ih => rw [List.filterMap_cons_some hm, ih]

theorem Nested.length_eq (h : Nested n inner calls made) : made.length = calls.length := by
  induction h with
  | nil => rfl
  | work _ _ ih => exact ih
  | call _ _ _ _ ih => rw [List.length_cons, List.length_cons, ih]

end Nested

/-- The list of calls is the list of the calls in progress above `base`, with what is pending for them. -/
def Logged (base : List Pending) (past : List Machine) (m : Machine) : Prop :=
  ∃ inner, m.pending = inner ++ base ∧ Nested base.length inner m.calls.toList (ongoing m past).reverse

/-- The moments of the calls in progress one moment later, the innermost first. -/
theorem ongoing_reverse (past : List Machine) (m now : Machine) :
    (ongoing now (past ++ [m])).reverse =
      (if m.called?.isSome ∧ m.pending.length < now.pending.length then [m] else []) ++
        (ongoing m past).reverse.filter (fun c => c.pending.length < now.pending.length) := by
  rw [ongoing_append, List.reverse_append, List.filter_reverse]
  split <;> rfl

/-- **A move keeps the list of calls exact.** -/
theorem Turns.logged {base : List Pending} {past : List Machine} {m m' : Machine} (ht : Turns m m')
    (ha : Above base m) (h : Logged base past m) : Logged base (past ++ [m]) m' := by
  obtain ⟨inner, hi, hn⟩ := h
  unfold Logged
  rw [ongoing_reverse]
  cases ht with
  | begins ws hp hws hnone hc =>
    refine ⟨ws ++ inner, by rw [hp, hi, List.append_assoc], ?_⟩
    have hmade : ¬(m.called?.isSome ∧ m.pending.length < m'.pending.length) := by
      rintro ⟨hsome, hlt⟩
      rcases hnone with rfl | hnone
      · rw [hp] at hlt
        simp at hlt
      · rw [hnone] at hsome
        cases hsome
    rw [if_neg hmade, List.nil_append, hc, hn.filter_eq (by simp [hp, hi])]
    exact hn.append hws
  | @enters w c hcalled hw hp hc _ =>
    refine ⟨w :: inner, by rw [hp, hi, List.cons_append], ?_⟩
    have hmade : m.called?.isSome ∧ m.pending.length < m'.pending.length := by
      rw [hcalled, hp]
      exact ⟨rfl, by simp⟩
    rw [if_pos hmade, hc, hn.filter_eq (by simp [hp, hi])]
    exact .call hw hcalled (by simp [hi]) hn
  | @hands ws w rest hd hw hcall hp hws hc =>
    obtain ⟨more, rfl, rfl⟩ := ha.top hi hd hw
    have hmore := hn.pop hcall
    refine ⟨ws ++ more, by rw [hp, List.append_assoc], ?_⟩
    rw [called?_of_isDue hd, if_neg (by simp), List.nil_append, hc, hmore.filter_eq (by simp [hp])]
    exact hmore.append hws
  | @goes w w' rest hd hw hcall hp hc =>
    obtain ⟨more, rfl, rfl⟩ := ha.top hi hd hw
    refine ⟨w' :: more, by rw [hp, List.cons_append], ?_⟩
    rw [called?_of_isDue hd, if_neg (by simp), List.nil_append, hc, hn.filter_eq (by simp [hp]; omega)]
    exact hn.replace hcall
  | @returns w rest hd hw hcall hp hc =>
    obtain ⟨more, rfl, rfl⟩ := ha.top hi hd hw
    refine ⟨more, hp, ?_⟩
    rw [called?_of_isDue hd, if_neg (by simp), List.nil_append, hc, Calls.toList_pop]
    generalize (ongoing m past).reverse = made at hn
    generalize m.calls.toList = calls at hn
    cases hn with
    | work hcall' _ =>
      rw [hcall] at hcall'
      cases hcall'
    | @call _ _ calls made c x _ _ hlow h =>
      have hover : ¬c.pending.length < m'.pending.length := by
        rw [hlow, hp]
        simp
      rw [List.filter_cons_of_neg (by simpa using hover), h.filter_eq (by simp [hp]), List.tail_cons]
      exact h

/-- A move makes no more calls than the settings allow. -/
theorem Turns.depth_le {m m' : Machine} (ht : Turns m m') (h : m.depth ≤ m.settings.maxCallDepth) :
    m'.depth ≤ m.settings.maxCallDepth := by
  have hdepth : m'.depth = m'.calls.depth := rfl
  cases ht with
  | begins _ _ _ _ hc | hands _ _ _ _ _ _ hc | goes _ _ _ _ hc => rwa [hdepth, hc]
  | enters _ _ _ hc hlt =>
    rw [hdepth, hc]
    exact hlt
  | returns _ _ _ _ hc =>
    rw [hdepth, hc]
    exact Nat.le_trans (Nat.sub_le _ 1) h

/-! ## Runs -/

section Runs

variable {m m' : Machine} {t : Task} {past : List Machine}

/-- A task that is undertaken inside no call. -/
theorem logged_undertake (hm : m.calls = .none) : Logged m.pending [] (m.undertake t) := by
  have hcalls : (m.undertake t).calls.toList = [] := by cases t <;> exact congrArg Calls.toList hm
  unfold Logged
  rw [hcalls]
  cases t with
  | statement s => exact ⟨[], rfl, .nil⟩
  | expression e => exact ⟨[], rfl, .nil⟩
  | call callee args span => exact ⟨[], rfl, .nil⟩
  | block body frame => exact ⟨[.block m.here body], rfl, .work rfl .nil⟩
  | program p => exact ⟨[.program 0 p], rfl, .work rfl .nil⟩

theorem Trail.logged (h : Trail m.pending (m.undertake t) past m') (hm : m.calls = .none) :
    Logged m.pending past m' := by
  induction h with
  | refl => exact logged_undertake hm
  | move ht hb hmove ih =>
    have hw := ht.working
    exact (hw.turns hb hmove).logged (hw.above (Task.product_ne_line t) hb) ih

theorem Trail.settings {base : List Pending} {m₀ : Machine} (h : Trail base m₀ past m') :
    m'.settings = m₀.settings := by
  induction h with
  | refl => rfl
  | move _ _ hm ih => exact hm.settings.trans ih

theorem Trail.depth_le (h : Trail m.pending (m.undertake t) past m') (hm : m.calls = .none) :
    m'.depth ≤ m'.settings.maxCallDepth := by
  induction h with
  | refl =>
    have hdepth : (m.undertake t).depth = 0 := by cases t <;> exact congrArg Calls.depth hm
    rw [hdepth]
    exact Nat.zero_le _
  | move ht hb hmove ih =>
    have hg : Grows (fun _ => True) _ _ := hmove.grows (fun _ => trivial) fun _ => trivial
    rw [hg.settings]
    exact (ht.working.turns hb hmove).depth_le ih

/-- The calls in progress, the outermost first. -/
theorem Logged.calls_eq {base : List Pending} (h : Logged base past m) :
    m.calls.toList.reverse = (ongoing m past).filterMap called? ∧ m.depth = (ongoing m past).length := by
  obtain ⟨inner, -, hn⟩ := h
  refine ⟨?_, ?_⟩
  · rw [← hn.calls_eq, List.filterMap_reverse, List.reverse_reverse]
  · have hl := hn.length_eq
    rw [List.length_reverse] at hl
    rw [hl]
    exact m.calls.depth_eq

/-- A call of a function with the right number of arguments fails for its depth exactly at the limit. -/
theorem callDepth_iff {f : Closure} {args : List Value} {span : Span} (hm : m.focus = .apply (.closure f) args span)
    (ha : f.params.length = args.length) (hd : m.depth ≤ m.settings.maxCallDepth) :
    (∃ d, m.step.1.focus = .fail d ∧ d.message = "Maximum call depth exceeded") ↔
      m.depth = m.settings.maxCallDepth := by
  simp only [step, hm, applyValue, ha, ne_eq, not_true_eq_false, if_false]
  split
  · rename_i hle
    have heq : m.depth = m.settings.maxCallDepth := Nat.le_antisymm hd hle
    exact ⟨fun _ => heq, fun _ => ⟨_, rfl, rfl⟩⟩
  · rename_i hlt
    refine ⟨?_, fun heq => absurd (Nat.le_of_eq heq.symm) hlt⟩
    rintro ⟨d, hf, -⟩
    cases hf

/-- A builtin leaves the calls alone. -/
theorem calls_of_native {f : Native} {args : List Value} {span : Span} (hm : m.focus = .apply (.native f) args span) :
    m.step.1.calls = m.calls := by
  have hnone : m.called? = none := by rw [called?, hm]
  have hturns := turns_applyValue hm
  have hstep : m.step = m.applyValue (.native f) args span := by simp only [step, hm]
  rw [← hstep] at hturns
  have hd : m.focus.isDue = false := by rw [hm]; rfl
  cases hturns with
  | begins _ _ _ _ hc => exact hc
  | enters hcalled =>
    rw [hnone] at hcalled
    cases hcalled
  | hands _ hdue | goes hdue | returns hdue =>
    rw [hd] at hdue
    cases hdue

/-- What is shown on the way is shown at moments of the run. -/
theorem Trail.shown {base : List Pending} {m₀ m m' : Machine} {past : List Machine} {shown : List Shown}
    (ht : Trail base m₀ past m) (hc : Carried base m shown m') : ∀ x ∈ shown, ∃ past', Trail base m₀ past' x.1 := by
  induction hc generalizing past with
  | refl => simp
  | @move m m₁ m' xs ys hb hm _ ih =>
    intro x hx
    rcases List.mem_append.1 hx with hx | hx
    · cases hm with
      | event v hs =>
        rw [List.mem_singleton.1 hx]
        -- The moment at which a hook is called is the one that a hook which does nothing leads to.
        exact ⟨_, ht.move hb (.event .proceed hs)⟩
      | step | answer | flag => cases hx
    · exact ih (ht.move hb hm) x hx

end Runs

end Machine

open Machine in
/-- **The list of calls is exact.** At every moment of a task that is undertaken inside no call, whatever is decided,
answered or flagged on the way: the calls, the outermost first, are those that were made and are in progress, each with
the name of its function and its line, and they are no more than the settings allow. A call that is about to be made is
at the place of a call expression that was to be evaluated with the same work pending, unless it is the task itself. A
call of a function with the right number of arguments fails for its depth exactly if as many calls as are allowed are in
progress, and builtins do not count. So it is whenever a hook is called. -/
theorem call_stack_exact :
    (∀ (m m' : Machine) (t : Task) (past : List Machine), m.calls = .none →
      Trail m.pending (m.undertake t) past m' →
      m'.calls.toList.reverse = (ongoing m' past).filterMap called? ∧
      m'.depth = (ongoing m' past).length ∧
      (ongoing m' past).length ≤ m.settings.maxCallDepth ∧
      (∀ (callee : Value) (args : List Value) (span : Span), m'.focus = .apply callee args span →
        Evaluated past span m'.pending ∨ t = .call callee args span) ∧
      (∀ (f : Closure) (args : List Value) (span : Span), m'.focus = .apply (.closure f) args span →
        f.params.length = args.length →
        ((∃ d, m'.step.1.focus = .fail d ∧ d.message = "Maximum call depth exceeded") ↔
          (ongoing m' past).length = m.settings.maxCallDepth)) ∧
      ∀ (f : Native) (args : List Value) (span : Span), m'.focus = .apply (.native f) args span →
        m'.step.1.calls = m'.calls) ∧
    ∀ (η : Type) (h : Hook η) (s s' : Session) (t : Task) (fuel : Nat) (state state' : η)
      (result : Except Diagnostic Value), s.machine.calls = .none → s.machine.pending = [] →
      s.drive h state fuel (s.machine.undertake t) = some (result, state', s') →
      ∃ shown : List Shown, state' = shown.foldl h.notice state ∧ ∀ x ∈ shown, ∃ past,
        Trail [] (s.machine.undertake t) past x.1 ∧
        x.1.calls.toList.reverse = (ongoing x.1 past).filterMap called? ∧
        (ongoing x.1 past).length ≤ s.machine.settings.maxCallDepth := by
  have hmoment : ∀ {m m' : Machine} {t : Task} {past : List Machine}, m.calls = .none →
      Trail m.pending (m.undertake t) past m' →
      m'.settings = m.settings ∧ m'.calls.toList.reverse = (ongoing m' past).filterMap called? ∧
      m'.depth = (ongoing m' past).length ∧ (ongoing m' past).length ≤ m.settings.maxCallDepth := by
    intro m m' t past hm ht
    have hsettings : m'.settings = m.settings := ht.settings.trans (by cases t <;> rfl)
    obtain ⟨hcalls, hdepth⟩ := (ht.logged hm).calls_eq
    refine ⟨hsettings, hcalls, hdepth, ?_⟩
    rw [← hdepth, ← hsettings]
    exact ht.depth_le hm
  refine ⟨?_, ?_⟩
  · intro m m' t past hm ht
    obtain ⟨hsettings, hcalls, hdepth, hle⟩ := hmoment hm ht
    refine ⟨hcalls, hdepth, hle, ht.traced.focus, ?_, fun f args span hf => calls_of_native hf⟩
    intro f args span hf ha
    rw [callDepth_iff hf ha (ht.depth_le hm), hdepth, hsettings]
  · intro η h s s' t fuel state state' result hm hp hd
    obtain ⟨-, shown, hc, hstate⟩ := Session.carried_of_drive hd
    refine ⟨shown, hstate, fun x hx => ?_⟩
    obtain ⟨past, ht⟩ := Trail.refl.shown hc x hx
    have ht' := ht
    rw [← hp] at ht'
    obtain ⟨-, hcalls, -, hle⟩ := hmoment hm ht'
    exact ⟨past, ht, hcalls, hle⟩

/-- A function of one statement. -/
def oneLiner : Closure := ⟨0, "f", [], [.expr (.literal .null ⟨0, 0, 3⟩) ⟨0, 0, 3⟩], Store.globals⟩

/-- A call of it. -/
def callOneLiner : Task := .call (.closure oneLiner) [] ⟨0, 0, 7⟩

open Machine in
/-- When the statement of the function is announced, the call was made and is listed with its name and line. Where no
calls are allowed, it fails. -/
theorem call_stack_exact_oneLiner :
    (∃ (past : List Machine) (m : Machine),
      Trail [] ((Config.machine ⟨1, .current, none⟩ .empty (.ofSeed 0)).undertake callOneLiner) past m ∧
      (ongoing m past).filterMap called? = [⟨"f", 7⟩] ∧ m.calls.toList.reverse = [⟨"f", 7⟩]) ∧
    ∃ d, ((Config.machine ⟨0, .current, none⟩ .empty (.ofSeed 0)).undertake callOneLiner).step.1.focus = .fail d ∧
      d.message = "Maximum call depth exceeded" := by
  have hgoing : ∀ m : Machine, m.isFinished = false → ¬m.Back [] := by
    intro m hm hb
    rw [(isFinished_iff m).2 hb] at hm
    cases hm
  refine ⟨?_, ?_⟩
  · let m₀ := Config.machine ⟨1, .current, none⟩ .empty (.ofSeed 0)
    obtain ⟨past, m, ht, hcalls⟩ : ∃ past m, Trail [] (m₀.undertake callOneLiner) past m ∧
        m.calls.toList.reverse = [⟨"f", 7⟩] := by
      have hset : Trail [] (m₀.undertake callOneLiner) [] (m₀.undertake callOneLiner) := .refl
      have hentered := hset.move (hgoing _ rfl) (.step rfl)
      have hstarted := hentered.move (hgoing _ rfl) (.step rfl)
      exact ⟨_, _, hstarted.move (hgoing _ rfl) (.event .proceed rfl), rfl⟩
    have h := call_stack_exact.1 m₀ m callOneLiner past rfl ht
    exact ⟨past, m, ht, h.1.symm.trans hcalls, hcalls⟩
  · have h := call_stack_exact.1 (Config.machine ⟨0, .current, none⟩ .empty (.ofSeed 0)) _ callOneLiner [] rfl .refl
    obtain ⟨-, -, -, -, hlimit, -⟩ := h
    exact (hlimit oneLiner [] ⟨0, 0, 7⟩ rfl rfl).2 rfl

end StepScript
