import StepScript.Proofs.Machine.Regions

/-!
# What a call cannot reach it leaves alone

A call has in hand its callee, its arguments and the global names. From there it gets to the frames around frames and to
what is bound in frames and kept in arrays (`Store.Reaches`), and to places that it makes itself. That region is closed
and fixed for the whole call, so the rest of the store is as it was, whatever the call runs and however it ends.

* `Calling R base m` goes through the stages of a call: it is set out, it reads a line, it runs inside a frame of its
  own, or it is back. The frame of the caller is kept for the way back only. One move goes from stage to stage and edits
  the store within the region (`Calling.move`).
-/

namespace StepScript

/-! ## Reaching places -/

/-- The places that can be reached from some values and the global frame: through the frames of functions, the frames
around frames, what frames bind and what arrays keep. -/
inductive Store.Reaches (s : Store) (roots : List Value) : Location → Prop
  | globals : Reaches s roots (.frame Store.globals)
  | root {v : Value} {l : Location} : v ∈ roots → v.location? = some l → Reaches s roots l
  | enclosing {f p : FrameId} : Reaches s roots (.frame f) → s.scopes.enclosing? f = some p →
      Reaches s roots (.frame p)
  | bound {f : FrameId} {x : String} {v : Value} {l : Location} : Reaches s roots (.frame f) →
      (s.scopes.slots f).find? x = some v → v.location? = some l → Reaches s roots l
  | element {id : ArrayId} {v : Value} {l : Location} : Reaches s roots (.array id) → v ∈ s.items id →
      v.location? = some l → Reaches s roots l

/-- What can be reached, and all that there is not yet. -/
def Store.reach (s : Store) (roots : List Value) : Region := fun l => s.Reaches roots l ∨ ¬s.Exists l

theorem Store.closed_reach (s : Store) (roots : List Value) : s.Closed (s.reach roots) := by
  refine ⟨?_, ?_, ?_⟩
  · intro f x v hf hv l hl
    rcases hf with hf | hf
    · exact Or.inl (.bound hf hv hl)
    · have hn : ¬f < s.scopes.frames.size := hf
      simp [Scopes.slots, hn] at hv
  · intro f p hf hp
    rcases hf with hf | hf
    · exact Or.inl (.enclosing hf hp)
    · exact absurd (Scopes.lt_of_enclosing? hp).2 hf
  · intro id v hid hv l hl
    rcases hid with hid | hid
    · exact Or.inl (.element hid hv hl)
    · rw [Store.items, Array.getElem?_eq_none (Nat.not_lt.1 hid)] at hv
      cases hv.val

/-- A region with all that there is not yet does not grow. -/
theorem Region.grown_eq {R : Region} {s : Store} (hR : ∀ l, ¬s.Exists l → R l) (s' : Store) : R.grown s s' = R := by
  funext l
  refine propext ⟨?_, Or.inl⟩
  rintro (hl | hl)
  · exact hl
  · exact hR l hl.1

theorem Region.grown_self (R : Region) (s : Store) : R.grown s s = R := by
  funext l
  refine propext ⟨?_, Or.inl⟩
  rintro (hl | hl)
  · exact hl
  · exact absurd hl.2 hl.1

/-- All that was there is still there, frames stand where they stood, and outside the region nothing has changed. -/
structure Store.Spares (R : Region) (s s' : Store) : Prop where
  still : ∀ l, s.Exists l → s'.Exists l
  parents : ∀ f, f < s.scopes.size → s'.scopes.enclosing? f = s.scopes.enclosing? f
  slots : ∀ f, f < s.scopes.size → ¬R (.frame f) → s'.scopes.slots f = s.scopes.slots f
  items : ∀ id, id < s.arrays.size → ¬R (.array id) → s'.items id = s.items id

section Spares

variable {R : Region} {s s' s'' : Store}

theorem Store.Edit.spares (h : s.Edit R s') : s.Spares R s' where
  still := fun _ hl => h.exists_of hl
  parents := fun _ hf => (h.frame hf).1
  slots := fun _ hf hn => (h.frame hf).2 hn
  items := fun _ hid hn => h.elements hid hn

theorem Store.Spares.trans (h : s.Spares R s') (h' : s'.Spares R s'') : s.Spares R s'' where
  still := fun l hl => h'.still l (h.still l hl)
  parents := fun f hf => (h'.parents f (h.still (.frame f) hf)).trans (h.parents f hf)
  slots := fun f hf hn => (h'.slots f (h.still (.frame f) hf) hn).trans (h.slots f hf hn)
  items := fun id hid hn => (h'.items id (h.still (.array id) hid) hn).trans (h.items id hid hn)

/-- A variable of a frame outside the region keeps its meaning wherever it is seen: the frames on the way to it lie
outside the region as well. -/
theorem Store.Spares.get? (h : s.Spares R s') (hs : s.Closed R) {f g : FrameId} {x : String}
    (hg : s.scopes.home? f x = some g) (hn : ¬R (.frame g)) : s'.scopes.get? f x = s.scopes.get? f x := by
  fun_induction Scopes.home? s.scopes f x with
  | case1 f hlt hc =>
    obtain rfl : f = g := Option.some.inj hg
    have hfind : ((s.scopes.slots f).find? x).isSome = true := by
      have hslots : s.scopes.slots f = s.scopes.frames[f].slots := by simp [Scopes.slots, hlt]
      rw [hslots]
      exact hc
    obtain ⟨v, hv⟩ := Option.isSome_iff_exists.1 hfind
    rw [Scopes.get?_eq, Scopes.get?_eq, h.slots f hlt hn, hv, Option.some_or, Option.some_or]
  | case2 f hlt hc p hp ih =>
    have hparent : s.scopes.enclosing? f = some p := by simp [Scopes.enclosing?, hlt, hp]
    have hf : ¬R (.frame f) := fun hf => hn (hs.home? (hs.parent f p hf hparent) hg)
    rw [Scopes.get?_eq, Scopes.get?_eq s.scopes, h.slots f hlt hf, h.parents f hlt, hparent, Option.bind_some,
      Option.bind_some, ih hg]
  | case3 => cases hg
  | case4 => cases hg

end Spares

/-! ## The stages of a call -/

namespace Machine

/-- The stages of a call on top of `base`, with `R` in hand. -/
inductive Calling (R : Region) (base : List Pending) (m : Machine) : Prop
  /-- The call is set out. -/
  | out {callee : Value} {args : List Value} {span : Span} : m.store.Closed R → R (.frame Store.globals) →
      (∀ v ∈ callee :: args, v.Lies R) → m.focus = .apply callee args span → m.pending = base → Calling R base m
  /-- A builtin waits for a line. -/
  | reads {prompt : String} {keep : Bool} {span : Span} : m.focus = .await prompt →
      m.pending = .reply keep span :: base → Calling R base m
  /-- A function runs; its last piece of work is to come back to the caller. -/
  | inside {outer : FrameId} {rest : List Stmt} : m.Ranges R (.call outer rest :: base) → Calling R base m
  | back : m.Back base → Calling R base m

section Calling

variable {R : Region} {base : List Pending} {m m' : Machine} {outer : FrameId} {rest : List Stmt}

theorem Back.heed (h : m.Back base) (v : Verdict) : (m.heed v).Back base := by
  refine ⟨(pending_heed m v).trans h.1, ?_⟩
  rcases focus_heed m v with hf | ⟨d, hf⟩
  · rw [hf]
    exact h.2
  · rw [hf]
    rfl

/-- The answer of a builtin is an outcome of the call, unless a line is to be read. -/
theorem calling_takeAnswer (hp : m.pending = base) (span : Span) (a : Answer) :
    (m.takeAnswer span a).1.store = m.store ∧
      ((m.takeAnswer span a).1.Back base ∨
        (m.takeAnswer span a).2 = none ∧ ∀ R', Calling R' base (m.takeAnswer span a).1) := by
  cases a with
  | ask prompt =>
    show (m.request true span prompt).store = m.store ∧
      ((m.request true span prompt).Back base ∨ none = none ∧ ∀ R', Calling R' base (m.request true span prompt))
    unfold request
    split
    · exact ⟨rfl, Or.inl ⟨hp, rfl⟩⟩
    · exact ⟨rfl, Or.inr ⟨rfl, fun R' => .reads rfl (congrArg (Pending.reply true span :: ·) hp)⟩⟩
  | _ => exact ⟨rfl, Or.inl ⟨hp, rfl⟩⟩

/-- The first step of a call: it comes back at once, or it reads or enters a frame of its own. -/
theorem calling_applyValue (hs : m.store.Closed R) (hg : R (.frame Store.globals)) (hp : m.pending = base)
    {callee : Value} {args : List Value} (hc : callee.Lies R) (ha : ∀ v ∈ args, v.Lies R) (span : Span) :
    let m' := (m.applyValue callee args span).1
    m.store.Edit R m'.store ∧ (m'.Back base ∨
      (m.applyValue callee args span).2 = none ∧ Calling (R.grown m.store m'.store) base m') := by
  have hraise : ∀ f, m.store.Edit R (m.raise span f).store ∧ (m.raise span f).Back base :=
    fun f => ⟨.same rfl rfl, hp, rfl⟩
  have hbuiltin : ∀ b : Builtin, m.store.Edit R (m.runBuiltin b args span).1.store ∧
      ((m.runBuiltin b args span).1.Back base ∨ (m.runBuiltin b args span).2 = none ∧
        Calling (R.grown m.store (m.runBuiltin b args span).1.store) base (m.runBuiltin b args span).1) := by
    intro b
    obtain ⟨hstore, hstage⟩ :=
      calling_takeAnswer (m := { m with store := (b.run args m.store).2 }) hp span (b.run args m.store).1
    have hedit : m.store.Edit R (m.runBuiltin b args span).1.store := by
      have hrun : (m.runBuiltin b args span).1.store = (b.run args m.store).2 := hstore
      rw [hrun]
      exact (edit_run hs b ha).1
    exact ⟨hedit, hstage.imp_right fun h => ⟨h.1, h.2 _⟩⟩
  unfold applyValue
  split
  · split
    · split
      · exact hbuiltin _
      · exact ⟨(hraise _).1, Or.inl (hraise _).2⟩
    · exact hbuiltin _
  · rename_i f
    split
    · exact ⟨(hraise _).1, Or.inl (hraise _).2⟩
    · split
      · exact ⟨(hraise _).1, Or.inl (hraise _).2⟩
      · have hargs : ∀ e ∈ f.params.zip args, e.2.Lies R := fun e he => ha e.2 (List.of_mem_zip he).2
        have hedit : m.store.Edit R (m.enterFunction f args span).store := .enter f.home _ (hc _ rfl) hargs rfl rfl
        -- The caller's frame need not lie in the region: it is in the piece of work below all that is kept track of.
        have hranges : Ranges (R.grown m.store (m.enterFunction f args span).store) (.call m.here f.body :: base)
            (m.enterFunction f args span) := by
          refine ⟨⟨hedit.closed hs, Or.inl hg, Or.inr (new_entered hargs rfl), [], ?_, List.forall_mem_nil _⟩, lies_nil⟩
          exact congrArg (Pending.call m.here f.body :: ·) hp
        exact ⟨hedit, Or.inr ⟨rfl, .inside hranges⟩⟩
  · exact ⟨(hraise _).1, Or.inl (hraise _).2⟩

/-- The last piece of work of a call is handed something: the call goes on with the next statement, or is back. -/
theorem calling_last (h : m.Ranges R (.call outer rest :: base)) (hd : m.focus.isDue = true)
    (hp : m.pending = .call outer rest :: base) :
    m.step.2 = none ∧ m.step.1.store = m.store ∧ Calling R base m.step.1 := by
  cases hm : m.focus with
  | start | exec | eval | apply =>
    rw [hm] at hd
    cases hd
  | await prompt =>
    simp only [step, hm]
    exact ⟨trivial, trivial, .inside h⟩
  | give v =>
    rw [step_give hm hp]
    exact ⟨rfl, rfl, .back ⟨rfl, rfl⟩⟩
  | done =>
    rw [step_done hm hp]
    cases rest with
    | nil => exact ⟨rfl, rfl, .back ⟨rfl, rfl⟩⟩
    | cons s rest =>
      exact ⟨rfl, rfl, .inside ⟨⟨h.store, h.globals, h.here, [], rfl, List.forall_mem_nil _⟩, lies_nil⟩⟩
  | leave v =>
    rw [step_leave hm hp]
    exact ⟨rfl, rfl, .back ⟨rfl, rfl⟩⟩
  | fail d =>
    rw [step_fail hm hp]
    refine ⟨rfl, rfl, .back ⟨rfl, ?_⟩⟩
    show m.focus.isOutcome = true
    rw [hm]
    rfl

/-- The answer to a read is the end of a call that waits for it. -/
theorem back_answer {prompt : String} {keep : Bool} {span : Span} (hf : m.focus = .await prompt)
    (hp : m.pending = .reply keep span :: base) (r : Reply) :
    (m.answer r).store = m.store ∧ (m.answer r).Back base := by
  simp only [answer, hf, hp]
  cases r with
  | line text =>
    dsimp only
    split <;> exact ⟨rfl, rfl, rfl⟩
  | cancelled =>
    dsimp only
    split <;> exact ⟨rfl, rfl, rfl⟩

/-- **A call goes from stage to stage**, and edits the store within its region. -/
theorem Calling.move (h : Calling R base m) (hb : ¬m.Back base) {xs : List Shown} (hm : Move m xs m') :
    m.store.Edit R m'.store ∧ Calling (R.grown m.store m'.store) base m' := by
  have hstays : ∀ {m' : Machine}, m'.store = m.store → Calling R base m' →
      m.store.Edit R m'.store ∧ Calling (R.grown m.store m'.store) base m' := by
    intro m' hs hc
    rw [hs, Region.grown_self]
    exact ⟨.same rfl rfl, hc⟩
  cases h with
  | out hs hg hl hf hp =>
    obtain ⟨hcallee, hargs⟩ := List.forall_mem_cons.1 hl
    have happly := calling_applyValue hs hg hp hcallee hargs
    cases hm with
    | step hstep =>
      simp only [step, hf] at hstep
      obtain ⟨hedit, hstage⟩ := happly _
      rw [hstep] at hedit hstage
      rcases hstage with hback | ⟨-, hstage⟩
      · exact ⟨hedit, .back hback⟩
      · exact ⟨hedit, hstage⟩
    | event v hstep =>
      simp only [step, hf] at hstep
      obtain ⟨hedit, hstage⟩ := happly _
      rw [hstep] at hedit hstage
      rw [store_heed]
      rcases hstage with hback | ⟨hnone, -⟩
      · exact ⟨hedit, .back (hback.heed v)⟩
      · cases hnone
    | answer r hawait =>
      rw [hf] at hawait
      cases hawait
    | flag stopped => exact hstays rfl (.out hs hg hl hf hp)
  | reads hf hp =>
    cases hm with
    | step hstep =>
      simp only [step, hf] at hstep
      cases hstep
      exact hstays rfl (.reads hf hp)
    | event v hstep =>
      simp only [step, hf] at hstep
      cases hstep
    | answer r _ =>
      obtain ⟨hs, hback⟩ := back_answer hf hp r
      exact hstays hs (.back hback)
    | flag stopped => exact hstays rfl (.reads hf hp)
  | @inside outer rest hr =>
    obtain ⟨inner, hi, -⟩ := hr.work
    by_cases hlast : m.focus.isDue = true ∧ inner = []
    · obtain ⟨hd, rfl⟩ := hlast
      obtain ⟨hnone, hs, hc⟩ := calling_last hr hd hi
      cases hm with
      | step hstep =>
        rw [hstep] at hs hc
        exact hstays hs hc
      | event v hstep =>
        rw [hstep] at hnone
        cases hnone
      | answer r hf =>
        have hsame : m.answer r = m := by simp only [answer, hf, hi, List.nil_append]
        rw [hsame]
        exact hstays rfl (.inside hr)
      | flag stopped => exact hstays rfl (.inside ⟨⟨hr.store, hr.globals, hr.here, hr.work⟩, hr.focus⟩)
    · -- What is handed something lies above the last piece.
      have habove : Above (.call outer rest :: base) m := by
        intro w more hd hw
        cases inner with
        | nil => exact absurd ⟨hd, rfl⟩ hlast
        | cons w' inner =>
          rw [hi] at hw
          exact ⟨inner, (List.cons.inj hw).2.symm⟩
      have hroams := hr.move habove hm
      exact ⟨hroams.edit, .inside (hroams.ranges hr.store hr.globals)⟩
  | back hback => exact absurd hback hb

/-- **A whole call spares what lies outside its region.** -/
theorem Calling.carried {xs : List Shown} (hc : Carried base m xs m') (h : Calling R base m)
    (hR : ∀ l, ¬m.store.Exists l → R l) : m.store.Spares R m'.store := by
  induction hc with
  | refl m => exact (Store.Edit.same rfl rfl : m.store.Edit R m.store).spares
  | move hb hm _ ih =>
    obtain ⟨hedit, hstage⟩ := h.move hb hm
    rw [Region.grown_eq hR] at hstage
    exact hedit.spares.trans (ih hstage fun l hl => hR l fun hl' => hl (hedit.exists_of hl'))

end Calling

/-- A call with its values in hand reaches no further than they do. -/
theorem spares_of_call {m m' : Machine} {callee : Value} {args : List Value} {span : Span} {shown : List Shown}
    (hc : Carried m.pending (m.undertake (.call callee args span)) shown m') :
    m.store.Spares (m.store.reach (callee :: args)) m'.store := by
  have hout : Calling (m.store.reach (callee :: args)) m.pending (m.undertake (.call callee args span)) := by
    refine .out (m.store.closed_reach _) (Or.inl .globals) ?_ rfl rfl
    intro v hv l hl
    exact Or.inl (.root hv hl)
  exact Calling.carried (m := m.undertake (.call callee args span)) hc hout fun l hl => Or.inr hl

end Machine

/-- From one store to another, what could not be reached from some values and the global frame is unchanged: frames and
where they stand, arrays, and the variables that are found in such frames, from wherever they are seen. -/
structure Store.Untouched (s : Store) (roots : List Value) (s' : Store) : Prop where
  frames : ∀ f, f < s.scopes.size → ¬s.Reaches roots (.frame f) →
    s'.scopes.slots f = s.scopes.slots f ∧ s'.scopes.enclosing? f = s.scopes.enclosing? f
  arrays : ∀ id, id < s.arrays.size → ¬s.Reaches roots (.array id) → s'.items id = s.items id
  names : ∀ f x g, s.scopes.home? f x = some g → ¬s.Reaches roots (.frame g) →
    s'.scopes.get? f x = s.scopes.get? f x

theorem Store.Spares.untouched {s s' : Store} {roots : List Value} (h : s.Spares (s.reach roots) s') :
    s.Untouched roots s' := by
  have hout : ∀ {l}, s.Exists l → ¬s.Reaches roots l → ¬s.reach roots l := by
    rintro l hl hn (hr | hr)
    · exact hn hr
    · exact hr hl
  refine ⟨?_, ?_, ?_⟩
  · intro f hf hn
    exact ⟨h.slots f hf (hout (l := .frame f) hf hn), h.parents f hf⟩
  · intro id hid hn
    exact h.items id hid (hout (l := .array id) hid hn)
  · intro f x g hg hn
    have hlt : g < s.scopes.size := Scopes.lt_of_home? hg
    exact h.get? (s.closed_reach roots) hg (hout (l := .frame g) hlt hn)

open Machine in
/-- **Calls are encapsulated.** At every moment of a call, whatever is decided, answered or flagged on the way and
however the call ends: frames and arrays that could not be reached, before the call, from the callee, the arguments or
the global frame are as they were, and so are the variables of the caller that are found in such frames. The same holds
of a call that is run to its end under a hook. -/
theorem call_leaves_untouched :
    (∀ (m m' : Machine) (callee : Value) (args : List Value) (span : Span) (shown : List Shown),
      Carried m.pending (m.undertake (.call callee args span)) shown m' →
        m.store.Untouched (callee :: args) m'.store) ∧
    ∀ (η : Type) (h : Hook η) (s s' : Session) (callee : Value) (args : List Value) (span : Span) (fuel : Nat)
      (state state' : η) (result : Except Diagnostic Value), s.machine.pending = [] →
      s.drive h state fuel (s.machine.undertake (.call callee args span)) = some (result, state', s') →
        s.machine.store.Untouched (callee :: args) s'.machine.store := by
  refine ⟨?_, ?_⟩
  · intro m m' callee args span shown hc
    exact (spares_of_call hc).untouched
  · intro η h s s' callee args span fuel state state' result hs hd
    obtain ⟨-, shown, hc, -⟩ := Session.carried_of_drive hd
    rw [← hs] at hc
    exact (spares_of_call hc).untouched

/-- A caller in a frame of its own, with a variable there, and two arrays. -/
def callerOfPush : Session :=
  let scopes := Scopes.root.define 0 "push" (.native ⟨"push", .fixed 2, .arrayPush⟩)
  let store : Store := ⟨(scopes.child 0).define 1 "x" .null, #[#[], #[]], 0, .ofSeed 0⟩
  ⟨{ Config.default.machine .empty (.ofSeed 0) with here := 1, store := store }, .script (.ofInputs [])⟩

/-- A global function that pushes its argument to itself and gives its own `x` a value. -/
def pusher : Value :=
  .closure ⟨0, "f", ["a"], [.assign "x"
    (.call (.name "push" ⟨0, 0, 1⟩) [.name "a" ⟨0, 0, 1⟩, .name "a" ⟨0, 0, 1⟩] ⟨0, 0, 1⟩) ⟨0, 0, 1⟩], 0⟩

/-- Nothing but the global frame and the array in hand can be reached by the call. -/
theorem reaches_callerOfPush {l : Location}
    (h : callerOfPush.machine.store.Reaches [pusher, .array 0] l) : l = .frame 0 ∨ l = .array 0 := by
  induction h with
  | globals => exact Or.inl rfl
  | root hv hl =>
    simp only [List.mem_cons, List.not_mem_nil, or_false] at hv
    rcases hv with rfl | rfl <;> cases hl
    · exact Or.inl rfl
    · exact Or.inr rfl
  | enclosing _ hp ih =>
    rcases ih with ih | ih <;> cases ih
    cases hp
  | @bound f x v l _ hv hl ih =>
    rcases ih with ih | ih <;> cases ih
    -- The global frame binds a builtin and nothing else.
    have hslots : callerOfPush.machine.store.scopes.slots 0 =
        Bindings.empty.put "push" (.native ⟨"push", .fixed 2, .arrayPush⟩) := rfl
    rw [hslots, Bindings.find?_put] at hv
    split at hv
    · cases hv
      cases hl
    · cases hv
  | element _ hv hl ih =>
    rcases ih with ih | ih <;> cases ih
    cases hv.val

/-- A call that changes the array that it is handed leaves the other one and the caller's variable alone. -/
theorem call_leaves_untouched_pusher :
    ∃ (v : Value) (s' : Session),
      callerOfPush.drive .idle () 40 (callerOfPush.machine.undertake (.call pusher [.array 0] ⟨0, 0, 1⟩)) =
        some (.ok v, (), s') ∧
      (s'.machine.store.items 0).size = 1 ∧ s'.machine.store.items 1 = #[] ∧
      s'.machine.store.scopes.get? callerOfPush.machine.here "x" = some .null := by
  have hrun : (callerOfPush.drive .idle () 40
      (callerOfPush.machine.undertake (.call pusher [.array 0] ⟨0, 0, 1⟩))).map
      (fun r => (r.1.isOk, (r.2.2.machine.store.items 0).size)) = some (true, 1) := by decide +kernel
  obtain ⟨⟨result, state, s'⟩, hd, hseen⟩ := Option.map_eq_some_iff.1 hrun
  obtain ⟨hok, hsize⟩ := Prod.mk.inj hseen
  have hout : ∀ {l}, l ≠ .frame 0 → l ≠ .array 0 → ¬callerOfPush.machine.store.Reaches [pusher, .array 0] l :=
    fun hf ha h => (reaches_callerOfPush h).elim hf ha
  have h := call_leaves_untouched.2 Unit .idle callerOfPush s' pusher [.array 0] ⟨0, 0, 1⟩ 40 () state result rfl hd
  have hx := h.names 1 "x" 1 (by decide +kernel) (hout (by decide) (by decide))
  have hi := h.arrays 1 (by decide) (hout (by decide) (by decide))
  cases result with
  | error d => cases hok
  | ok v =>
    refine ⟨v, s', hd, hsize, hi, hx.trans ?_⟩
    rw [Scopes.get?_eq]
    rfl

end StepScript
