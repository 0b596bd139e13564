import StepScript.Proofs.Machine.Accounting
import StepScript.Proofs.Machine.Trailing

/-!
# Work on top of other work

A machine looks at its focus and at the innermost piece of pending work. So it works on top of other work as it does on
its own, until it is done: the step of `m.atop base` is the step of `m` (`step_atop`), and an observer who does not look
at the focus and the pending work sees the same (`advance_atop`).
-/

namespace StepScript

/-- An observer who does not hold a run and does not look at the focus and the pending work. -/
structure Observer.Aloof {σ : Type} (o : Observer σ) : Prop where
  sees : ∀ s m focus pending e, o.see s { m with focus := focus, pending := pending } e = o.see s m e
  lets : ∀ s m e, (o.see s m e).2.course ≠ .hold

/-- The plain run on a console is watched by such an observer. -/
theorem aloof_idle : Hook.idle.observer.Aloof := by
  refine ⟨?_, ?_⟩
  · intro s m focus pending e
    cases e <;> rfl
  · intro s m e h
    cases e <;> cases h

namespace Machine

/-- The machine with more work beneath what is pending. -/
def atop (m : Machine) (base : List Pending) : Machine := { m with pending := m.pending ++ base }

section Atop

variable (m : Machine) (base : List Pending)

theorem atop_focus : (m.atop base).focus = m.focus := by rw [atop]

theorem atop_here : (m.atop base).here = m.here := by rw [atop]

theorem atop_depth : (m.atop base).depth = m.depth := by rw [atop, depth, depth]

theorem atop_store : (m.atop base).store = m.store := by rw [atop]

theorem atop_stopped : (m.atop base).stopped = m.stopped := by rw [atop]

theorem atop_settings : (m.atop base).settings = m.settings := by rw [atop]

theorem request_atop (keep : Bool) (span : Span) (prompt : String) :
    (m.atop base).request keep span prompt = (m.request keep span prompt).atop base := by
  simp only [request, atop_stopped]
  split <;> rfl

theorem settle_atop (span : Span) (r : Except RuntimeFault Value) :
    (m.atop base).settle span r = (m.settle span r).atop base := by
  cases r <;> rfl

theorem startStatement_atop (s : Stmt) :
    (m.atop base).startStatement s = ((m.startStatement s).1.atop base, (m.startStatement s).2) := by
  simp only [startStatement, atop_stopped]
  split
  · rfl
  · split <;> rfl

theorem execStatement_atop (s : Stmt) : (m.atop base).execStatement s = (m.execStatement s).atop base := by
  cases s with
  | input keyword prompt span =>
    cases prompt with
    | none => exact request_atop m base false span _
    | some e => rfl
  | leave value span => cases value <;> rfl
  | _ => rfl

theorem evalExpression_atop (e : Expr) : (m.atop base).evalExpression e = (m.evalExpression e).atop base := by
  cases e with
  | name x span =>
    simp only [evalExpression, atop_store, atop_here]
    split <;> rfl
  | array items span => cases items <;> rfl
  | _ => rfl

theorem takeAnswer_atop (span : Span) (a : Answer) :
    (m.atop base).takeAnswer span a = ((m.takeAnswer span a).1.atop base, (m.takeAnswer span a).2) := by
  cases a with
  | ask prompt => exact congrArg (·, none) (request_atop m base true span prompt)
  | _ => rfl

theorem applyValue_atop (callee : Value) (args : List Value) (span : Span) :
    (m.atop base).applyValue callee args span =
      ((m.applyValue callee args span).1.atop base, (m.applyValue callee args span).2) := by
  have hbuiltin (b : Builtin) : (m.atop base).runBuiltin b args span =
      ((m.runBuiltin b args span).1.atop base, (m.runBuiltin b args span).2) :=
    takeAnswer_atop { m with store := (b.run args m.store).2 } base span (b.run args m.store).1
  cases callee with
  | native f =>
    simp only [applyValue]
    split
    · split
      · exact hbuiltin _
      · rfl
    · exact hbuiltin _
  | closure f =>
    simp only [applyValue, atop_settings, atop_depth]
    split
    · rfl
    · split <;> rfl
  | _ => rfl

theorem takeValue_atop (v : Value) (w : Pending) :
    (m.atop base).takeValue v w = ((m.takeValue v w).1.atop base, (m.takeValue v w).2) := by
  cases w with
  | discard =>
    simp only [takeValue, atop_depth, atop_here]
    split <;> rfl
  | write newline => cases newline <;> rfl
  | prompt span => exact congrArg (·, none) (request_atop m base false span _)
  | choose yes no =>
    simp only [takeValue, atop_store]
    split
    · rfl
    · cases no <;> rfl
  | test condition body =>
    simp only [takeValue, atop_store]
    split <;> rfl
  | combine op left span => exact congrArg (·, none) (settle_atop m base span _)
  | logical op right =>
    simp only [takeValue, atop_store]
    split <;> rfl
  | unary op span => exact congrArg (·, none) (settle_atop m base span _)
  | callee args span => cases args <;> rfl
  | argument f before rest span => cases rest <;> rfl
  | item before rest => cases rest <;> rfl
  | property x span => exact congrArg (·, none) (settle_atop m base span _)
  | index object span => exact congrArg (·, none) (settle_atop m base span _)
  | setProperty x span => cases v <;> rfl
  | setObject index value span => cases v <;> rfl
  | setValue object index span =>
    simp only [takeValue]
    split <;> rfl
  | _ => rfl

theorem afterStatement_atop (w : Pending) : (m.atop base).afterStatement w = (m.afterStatement w).atop base := by
  cases w with
  | block outer rest | call outer rest | program index rest => cases rest <;> rfl
  | _ => rfl

theorem leaveThrough_atop (v : Value) (w : Pending) :
    (m.atop base).leaveThrough v w = (m.leaveThrough v w).atop base := by
  cases w <;> rfl

theorem failThrough_atop (w : Pending) : (m.atop base).failThrough w = (m.failThrough w).atop base := by
  cases w <;> rfl

theorem heed_atop (v : Verdict) : (m.atop base).heed v = (m.heed v).atop base := by
  unfold heed
  cases v.course <;> cases v.stop <;> rfl

end Atop

section Steps

variable {m : Machine}

/-- **A step does not look beneath the work that it is about.** -/
theorem step_atop (hb : ¬m.Back []) (base : List Pending) : (m.atop base).step = (m.step.1.atop base, m.step.2) := by
  have hout : m.focus.isOutcome = true → m.pending ≠ [] := fun ho hp => hb ⟨hp, ho⟩
  have hpending {w : Pending} {rest : List Pending} (hp : m.pending = w :: rest) :
      (m.atop base).pending = w :: (rest ++ base) := congrArg (· ++ base) hp
  cases hm : m.focus with
  | start s =>
    simp only [step, hm, atop_focus]
    exact startStatement_atop m base s
  | exec s =>
    simp only [step, hm, atop_focus]
    exact congrArg (·, none) (execStatement_atop m base s)
  | eval e =>
    simp only [step, hm, atop_focus]
    exact congrArg (·, none) (evalExpression_atop m base e)
  | apply callee args span =>
    simp only [step, hm, atop_focus]
    exact applyValue_atop m base callee args span
  | await prompt => simp only [step, hm, atop_focus]
  | give v =>
    cases hp : m.pending with
    | nil => exact absurd hp (hout (by rw [hm]; rfl))
    | cons w rest =>
      rw [step_give hm hp, step_give (m := m.atop base) hm (hpending hp)]
      exact takeValue_atop { m with pending := rest } base v w
  | done =>
    cases hp : m.pending with
    | nil => exact absurd hp (hout (by rw [hm]; rfl))
    | cons w rest =>
      rw [step_done hm hp, step_done (m := m.atop base) hm (hpending hp)]
      exact congrArg (·, none) (afterStatement_atop { m with pending := rest } base w)
  | leave v =>
    cases hp : m.pending with
    | nil => exact absurd hp (hout (by rw [hm]; rfl))
    | cons w rest =>
      rw [step_leave hm hp, step_leave (m := m.atop base) hm (hpending hp)]
      exact congrArg (·, none) (leaveThrough_atop { m with pending := rest } base v w)
  | fail d =>
    cases hp : m.pending with
    | nil => exact absurd hp (hout (by rw [hm]; rfl))
    | cons w rest =>
      rw [step_fail hm hp, step_fail (m := m.atop base) hm (hpending hp)]
      exact congrArg (·, none) (failThrough_atop { m with pending := rest } base w)

/-- Nor does an answer to a read. -/
theorem answer_atop {prompt : String} {keep : Bool} {span : Span} {rest : List Pending} (hm : m.focus = .await prompt)
    (hp : m.pending = .reply keep span :: rest) (reply : Reply) (base : List Pending) :
    (m.atop base).answer reply = (m.answer reply).atop base := by
  obtain ⟨focus, pending, here, calls, store, stopped, cursor, latest, settings⟩ := m
  cases hm
  cases hp
  cases reply with
  | line text => cases keep <;> rfl
  | cancelled => cases stopped <;> rfl

theorem back_atop (base : List Pending) (hbase : base ≠ []) : ¬(m.atop base).Back [] := by
  rintro ⟨hp, -⟩
  exact hbase (List.append_eq_nil_iff.1 hp).2

/-- **A watched step on top of other work is the watched step**: it goes on, or a read is left open. -/
theorem advance_atop {σ : Type} {o : Observer σ} (ho : o.Aloof) {home : Place} {p : Product} (hw : Working [] home p m)
    (hp : p ≠ .line) (hb : ¬m.Back []) (s : σ) :
    (∃ s₁ m₁, Working [] home p m₁ ∧ ∀ base ≠ [], (m.atop base).advance o s = .going s₁ (m₁.atop base)) ∨
      ∃ s₁ prompt, m.focus = .await prompt ∧ ∀ base, (m.atop base).advance o s = .resting s₁ (m.atop base) := by
  cases hwait : m.waiting? with
  | some prompt =>
    have hm := focus_of_waiting? hwait
    obtain ⟨keep, span, rest, hpending⟩ := hw.reply hp hm
    cases hask : o.ask s prompt with
    | mk s₁ reply =>
      cases reply with
      | some reply =>
        refine Or.inl ⟨s₁, m.answer reply, working_answer hw hp reply, fun base _ => ?_⟩
        simp only [advance, atop_focus, hm, hask, answer_atop hm hpending]
      | none =>
        refine Or.inr ⟨s₁, prompt, hm, fun base => ?_⟩
        simp only [advance, atop_focus, hm, hask]
  | none =>
    have hworking := working_step hw hb
    have hadvance (base : List Pending) (hbase : base ≠ []) :=
      advance_unheld ho.lets s (m := m.atop base) hwait (back_atop base hbase)
    left
    cases hstep : m.step with
    | mk m₁ e =>
      rw [hstep] at hworking
      simp only [step_atop hb, hstep] at hadvance
      cases e with
      | none => exact ⟨s, m₁, hworking, hadvance⟩
      | some e =>
        refine ⟨(o.see s m₁ e).1, m₁.heed (o.see s m₁ e).2, hworking.heed _, fun base hbase => ?_⟩
        have hsee : o.see s (m₁.atop base) e = o.see s m₁ e := ho.sees s m₁ m₁.focus (m₁.pending ++ base) e
        have hgoing : (m.atop base).advance o s =
            .going (o.see s (m₁.atop base) e).1 ((m₁.atop base).heed (o.see s (m₁.atop base) e).2) :=
          hadvance base hbase
        rw [hgoing, hsee, heed_atop]

end Steps

end Machine

end StepScript
