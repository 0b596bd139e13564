import StepScript.Proofs.Machine.Regions

/-!
# Every frame stands inside the global one

A session hands its machine nothing but values of its own, and a machine forges no references. So whatever frame a
machine stands in, comes back to or finds in a function, the frames around it lead to the global frame
(`Scopes.Chain`), and names are looked up along that way.

* `Machine.Rooted` is the invariant: all that is in hand refers to places that there are, and every frame but the global
  one stands inside another. A move keeps it (`Rooted.move`), and so does whatever else happens in a session
  (`Session.Owned.rooted`).
-/

namespace StepScript

/-! ## The way to the global frame -/

namespace Scopes

variable {s : Scopes} {f : FrameId} {chain : List FrameId}

/-- The frames from a frame outward, to the global frame and no further. -/
inductive Chain (s : Scopes) : FrameId → List FrameId → Prop
  | globals : s.enclosing? Store.globals = none → Chain s Store.globals [Store.globals]
  | inside {f p : FrameId} {chain : List FrameId} : s.enclosing? f = some p → Chain s p chain → Chain s f (f :: chain)

theorem Chain.le (h : s.Chain f chain) : ∀ g ∈ chain, g ≤ f := by
  induction h with
  | globals _ => simp
  | inside hp _ ih =>
    have hlt := (lt_of_enclosing? hp).1
    intro g hg
    rcases List.mem_cons.1 hg with rfl | hg
    · exact Nat.le_refl _
    · exact Nat.le_trans (ih g hg) (Nat.le_of_lt hlt)

/-- No frame comes twice on the way. -/
theorem Chain.nodup (h : s.Chain f chain) : chain.Nodup := by
  induction h with
  | globals _ => simp
  | inside hp hc ih =>
    refine List.nodup_cons.2 ⟨fun hmem => ?_, ih⟩
    exact Nat.not_le.2 (lt_of_enclosing? hp).1 (hc.le _ hmem)

theorem Chain.getLast? (h : s.Chain f chain) : chain.getLast? = some Store.globals := by
  induction h with
  | globals _ => rfl
  | @inside f p chain _ _ ih =>
    cases chain with
    | nil => cases ih
    | cons g rest => rw [List.getLast?_cons_cons, ih]

/-- A name means what the first frame on the way says that binds it. -/
theorem Chain.get? (h : s.Chain f chain) (x : String) :
    s.get? f x = chain.findSome? fun g => (s.slots g).find? x := by
  induction h with
  | globals hn =>
    rw [get?_eq, hn]
    simp
  | inside hp _ ih =>
    rw [get?_eq, hp, List.findSome?_cons, Option.bind_some, ih]
    cases (s.slots _).find? x <;> rfl

/-- A global name means something wherever the way leads to the global frame. -/
theorem Chain.resolves (h : s.Chain f chain) {x : String} (hx : (s.slots Store.globals).contains x = true) :
    (s.get? f x).isSome = true := by
  rw [h.get? x, List.findSome?_isSome_iff]
  exact ⟨Store.globals, List.mem_of_getLast? h.getLast?, hx⟩

/-- If every frame but the global one stands inside another, there is a way from all of them. -/
theorem exists_chain (hroot : s.enclosing? Store.globals = none)
    (hinside : ∀ f, f < s.size → f ≠ Store.globals → ∃ p, s.enclosing? f = some p) (hf : f < s.size) :
    ∃ chain, s.Chain f chain := by
  induction f using Nat.strongRecOn with
  | ind f ih =>
    by_cases hg : f = Store.globals
    · rw [hg]
      exact ⟨_, .globals hroot⟩
    · obtain ⟨p, hp⟩ := hinside f hf hg
      have hlt := (lt_of_enclosing? hp).1
      obtain ⟨chain, hc⟩ := ih p hlt (Nat.lt_trans hlt hf)
      exact ⟨f :: chain, .inside hp hc⟩

end Scopes

/-! ## The places that there are -/

/-- After an edit there are the places from before and the new ones. -/
theorem Store.Edit.exists_grown {R : Region} {s s' : Store} (h : s.Edit R s') :
    s.Exists.grown s s' = s'.Exists := by
  funext l
  refine propext ⟨?_, ?_⟩
  · rintro (hl | hl)
    · exact h.exists_of hl
    · exact hl.2
  · intro hl
    by_cases hold : s.Exists l
    · exact Or.inl hold
    · exact Or.inr ⟨hold, hl⟩

/-- What a task brings along refers to places that there are. -/
def Task.Owned (s : Store) : Task → Prop
  | call callee args _ => ∀ v ∈ callee :: args, v.Lies s.Exists
  | block _ frame => s.Exists (.frame frame)
  | statement _ | expression _ | program _ => True

namespace Machine

/-- All that is in hand refers to places that there are, and every frame but the global one stands inside another. -/
structure Rooted (m : Machine) : Prop where
  ranges : m.Ranges m.store.Exists []
  root : m.store.scopes.enclosing? Store.globals = none
  inside : ∀ f, f < m.store.scopes.size → f ≠ Store.globals → ∃ p, m.store.scopes.enclosing? f = some p

section Rooted

variable {m m' : Machine}

/-- What forges no reference keeps the frames rooted. -/
theorem Rooted.roams (h : m.Rooted) (hr : Roams m.store.Exists [] m.store m') : m'.Rooted := by
  have hglobals : Store.globals < m.store.scopes.size := h.ranges.globals
  refine ⟨?_, ?_, ?_⟩
  · have := hr.ranges h.ranges.store h.ranges.globals
    rwa [hr.edit.exists_grown] at this
  · rw [(hr.edit.frame hglobals).1]
    exact h.root
  · intro f hf hne
    by_cases hlt : f < m.store.scopes.size
    · rw [(hr.edit.frame hlt).1]
      exact h.inside f hlt hne
    · obtain ⟨p, hp, heq⟩ := hr.edit.fresh (Nat.not_lt.1 hlt) hf
      exact ⟨p, heq.trans (if_pos hp)⟩

/-- **A move keeps the frames rooted.** -/
theorem Rooted.move (h : m.Rooted) {xs : List Shown} (hm : Move m xs m') : m'.Rooted :=
  h.roams (h.ranges.move above_nil hm)

theorem Rooted.carried {base : List Pending} {xs : List Shown} (hc : Carried base m xs m') (h : m.Rooted) :
    m'.Rooted := by
  induction hc with
  | refl => exact h
  | move _ hm _ ih => exact ih (h.move hm)

/-- A task with values that there are keeps the frames rooted. -/
theorem Rooted.undertake (h : m.Rooted) {t : Task} (ht : t.Owned m.store) : (m.undertake t).Rooted := by
  have hk := h.ranges.toKeeps
  cases t with
  | statement s => exact h.roams (hk.turn lies_nil)
  | expression e => exact h.roams (hk.turn lies_nil)
  | call callee args span => exact h.roams (hk.turn ht)
  | block body frame =>
    have houter : (Pending.block m.here body).Lies m.store.Exists m.latest := by
      refine ⟨lies_nil, ?_⟩
      rintro f ⟨⟩
      exact hk.here
    have hpush := hk.push (f := .done) lies_nil houter
    exact h.roams ⟨hpush.edit, Or.inl ht, hpush.work, hpush.focus⟩
  | program p =>
    have hnull : Value.null.Lies m.store.Exists := Value.Plain.lies (v := .null) rfl _
    obtain ⟨inner, hi, hin⟩ := hk.work
    refine h.roams ⟨.same rfl rfl, Or.inl hk.here, ⟨.program 0 p :: inner, ?_, ?_⟩, lies_nil⟩
    · exact congrArg (Pending.program 0 p :: ·) hi
    · intro w hw
      rcases List.mem_cons.1 hw with rfl | hw
      · exact lies_grown (lies_work rfl (lies_value hnull))
      · exact lies_grown (lies_latest (hin w hw) hnull)

/-- The store is edited from outside. -/
theorem Rooted.edited (h : m.Rooted) {s : Store} (he : m.store.Edit m.store.Exists s) :
    ({ m with store := s } : Machine).Rooted :=
  h.roams (h.ranges.toKeeps.edits he rfl rfl rfl fun v hv => (h.ranges.focus v hv).grown)

/-- A machine at rest with registered names. -/
theorem rooted_initial (settings : Settings) (random : Random) : (Machine.initial settings random).Rooted := by
  obtain ⟨hsize, hroot, hslots⟩ := plain_install settings.registry random
  have hglobals : Store.globals < (Machine.initial settings random).store.scopes.size := by
    show Store.globals < _
    rw [show (Machine.initial settings random).store.scopes.size = 1 from hsize]
    decide
  refine ⟨⟨⟨⟨?_, ?_, ?_⟩, hglobals, hglobals, [], rfl, List.forall_mem_nil _⟩, lies_nil⟩, hroot, ?_⟩
  · intro f x v _ hv
    exact (hslots f x v hv).lies _
  · intro f p _ hp
    exact Nat.lt_trans (Scopes.lt_of_enclosing? hp).1 (Scopes.lt_of_enclosing? hp).2
  · intro id v _ hv
    cases hv.val
  · intro f hf hne
    have hone : f < 1 := Nat.lt_of_lt_of_eq hf hsize
    exact absurd (Nat.lt_one_iff.1 hone) hne

end Rooted

/-- The frames that a machine has to do with: the current frame, those that it comes back to, those of the functions
that it has in hand or that are bound in a frame or kept in an array, and all around them. -/
inductive Meets (m : Machine) : FrameId → Prop
  | here : Meets m m.here
  | outer {w : Pending} {f : FrameId} : w ∈ m.pending → w.outer? = some f → Meets m f
  | focus {c : Closure} : .closure c ∈ m.focus.values → Meets m c.home
  | pending {w : Pending} {c : Closure} : w ∈ m.pending → .closure c ∈ w.holds m.latest → Meets m c.home
  | bound {f : FrameId} {x : String} {c : Closure} :
      (m.store.scopes.slots f).find? x = some (.closure c) → Meets m c.home
  | element {id : ArrayId} {c : Closure} : .closure c ∈ m.store.items id → Meets m c.home
  | enclosing {f p : FrameId} : Meets m f → m.store.scopes.enclosing? f = some p → Meets m p

/-- A rooted machine has to do with frames that there are. -/
theorem Rooted.meets {m : Machine} (h : m.Rooted) {f : FrameId} (hf : m.Meets f) : f < m.store.scopes.size := by
  obtain ⟨inner, hi, hin⟩ := h.ranges.work
  rw [List.append_nil] at hi
  induction hf with
  | here => exact h.ranges.here
  | @outer w f hw hf =>
    rw [hi] at hw
    exact (hin w hw).outer f hf
  | @focus c hc => exact h.ranges.focus _ hc _ rfl
  | @pending w c hw hc =>
    rw [hi] at hw
    exact (hin w hw).values _ hc _ rfl
  | @bound g x c hc =>
    by_cases hg : g < m.store.scopes.size
    · exact h.ranges.store.slots g x _ hg hc _ rfl
    · have hn : ¬g < m.store.scopes.frames.size := hg
      simp [Scopes.slots, hn] at hc
  | @element id c hc =>
    by_cases hid : id < m.store.arrays.size
    · exact h.ranges.store.items id _ hid hc _ rfl
    · rw [Store.items, Array.getElem?_eq_none (Nat.not_lt.1 hid)] at hc
      cases hc.val
  | enclosing _ hp _ => exact Nat.lt_trans (Scopes.lt_of_enclosing? hp).1 (Scopes.lt_of_enclosing? hp).2

end Machine

/-! ## Sessions with values of their own -/

namespace Session

open Machine

/-- A step of a session that is handed nothing from outside but values of its own. -/
inductive OwnStep : Session → Session → Prop
  | run {η : Type} (h : Hook η) {s s' : Session} {state state' : η} {fuel : Nat} {source : String}
      {result : Except Diagnostic Value} :
      s.executeWith h state fuel source = some (result, state', s') → OwnStep s s'
  | task {η : Type} (h : Hook η) {s s' : Session} {state state' : η} {fuel : Nat} {t : Task}
      {result : Except Diagnostic Value} : t.Owned s.machine.store →
      s.drive h state fuel (s.machine.undertake t) = some (result, state', s') → OwnStep s s'
  | call {s s' : Session} {fuel : Nat} {x : String} {args : List Value} {span : Span}
      {result : Except Diagnostic Value} : (∀ v ∈ args, v.Lies s.machine.store.Exists) →
      s.call fuel x args span = some (result, s') → OwnStep s s'
  | define (s : Session) (x : String) {v : Value} : v.Lies s.machine.store.Exists → OwnStep s (s.define x v)
  | flag (s : Session) (stopped : Bool) : OwnStep s (s.setStopped stopped)
  | array (s : Session) {items : List Value} : (∀ v ∈ items, v.Lies s.machine.store.Exists) →
      OwnStep s (s.newArray items).2

/-- The sessions that such steps lead to from a new one. -/
inductive Owned (registry : Registry) (config : Config) (console : Console) : Session → Prop
  | new (entropy : Random) : Owned registry config console (Session.new registry config console entropy)
  | step {s s' : Session} : Owned registry config console s → OwnStep s s' → Owned registry config console s'

theorem OwnStep.step {s s' : Session} (h : OwnStep s s') : Step s s' := by
  cases h with
  | run h hr => exact .run h hr
  | task h _ hr => exact .task h _ hr
  | call _ hr => exact .call hr
  | define _ x _ => exact .define s x _
  | flag _ stopped => exact .flag s stopped
  | array _ _ => exact .array s _

section Owned

variable {registry : Registry} {config : Config} {console : Console} {s s' : Session}

theorem Owned.atHome (h : Owned registry config console s) : s.AtHome := by
  induction h with
  | new entropy => exact atHome_new registry config console entropy
  | step _ hs ih => exact ih.step hs.step

/-- A driven machine stays rooted. -/
theorem rooted_drive {η : Type} {h : Hook η} {state state' : η} {fuel : Nat} {t : Task}
    {result : Except Diagnostic Value} (hm : s.machine.Rooted) (ht : t.Owned s.machine.store)
    (hd : s.drive h state fuel (s.machine.undertake t) = some (result, state', s')) : s'.machine.Rooted := by
  obtain ⟨-, shown, hc, -⟩ := carried_of_drive hd
  exact (hm.undertake ht).carried hc

/-- A step with values of its own keeps the frames of a session rooted. -/
theorem OwnStep.rooted (hs : s.AtHome) (hm : s.machine.Rooted) (h : OwnStep s s') : s'.machine.Rooted := by
  cases h with
  | @run η h _ _ state state' fuel source result hr =>
    cases hcompile : compile source with
    | error d =>
      rw [executeWith_error hcompile] at hr
      cases hr
      exact hm
    | ok program =>
      rw [executeWith_ok hcompile, ← undertake_program hs.pending] at hr
      exact rooted_drive hm (t := .program _) trivial hr
  | task h ht hr => exact rooted_drive hm ht hr
  | @call _ _ fuel x args span _ ha hr =>
    cases hx : s.machine.store.scopes.get? Store.globals x with
    | none =>
      rw [call_error (by rw [Session.global, hx])] at hr
      cases hr
      exact hm
    | some callee =>
      have hown : (Task.call callee args span).Owned s.machine.store :=
        List.forall_mem_cons.2 ⟨hm.ranges.store.get? hm.ranges.globals hx, ha⟩
      rw [call_ok (by rw [Session.global, hx]), ← undertake_call hs.pending] at hr
      obtain ⟨r, hd, heq⟩ := Option.map_eq_some_iff.1 hr
      cases heq
      exact rooted_drive hm hown hd
  | define _ x hv => exact hm.edited (.define Store.globals x _ hm.ranges.globals hv rfl rfl)
  | flag _ stopped => exact hm.move (.flag s.machine stopped)
  | array _ hi => exact hm.edited (edit_newArray _ fun v hv => hi v (List.mem_toArray.1 hv))

/-- **Between two steps of a session its frames are rooted.** -/
theorem Owned.rooted (h : Owned registry config console s) : s.machine.Rooted := by
  induction h with
  | new => exact rooted_initial _ _
  | step hr hs ih => exact hs.rooted hr.atHome ih

/-- **And so they are at every moment of a task.** -/
theorem Owned.rooted_during (h : Owned registry config console s) {m : Machine}
    (hm : m = s.machine ∨
      ∃ t shown, Task.Owned s.machine.store t ∧ Carried [] (s.machine.undertake t) shown m) : m.Rooted := by
  rcases hm with rfl | ⟨t, shown, ht, hc⟩
  · exact h.rooted
  · exact (h.rooted.undertake ht).carried hc

end Owned

end Session

open Machine Session in
/-- **All frames lead to the global frame.** At every moment of a session, between its steps and during them, whatever
programs were run, called, bound or stopped before and however they ended: from every frame that the machine has to do
with, the frames around it lead to the global frame, no frame comes twice on the way, and a name means what the first of
them says that binds it. So a global name means something in all of them. -/
theorem frames_lead_to_globals (registry : Registry) (config : Config) (console : Console) (s : Session)
    (hs : Session.Owned registry config console s) (m : Machine)
    (hm : m = s.machine ∨
      ∃ t shown, Task.Owned s.machine.store t ∧ Carried [] (s.machine.undertake t) shown m)
    (f : FrameId) (hf : m.Meets f) :
    ∃ chain : List FrameId, m.store.scopes.Chain f chain ∧ chain.Nodup ∧ chain.getLast? = some Store.globals ∧
      (∀ x, m.store.scopes.get? f x = chain.findSome? fun g => (m.store.scopes.slots g).find? x) ∧
      ∀ x, (m.store.scopes.slots Store.globals).contains x = true → (m.store.scopes.get? f x).isSome = true := by
  have hrooted := hs.rooted_during hm
  obtain ⟨chain, hchain⟩ := Scopes.exists_chain hrooted.root hrooted.inside (hrooted.meets hf)
  exact ⟨chain, hchain, hchain.nodup, hchain.getLast?, hchain.get?, fun x hx => hchain.resolves hx⟩

/-- A function that hands out another in an array, and a call of it. -/
def handOut : Program :=
  [.function "make" []
    [.function "inner" [] [] ⟨0, 0, 1⟩,
      .leave (some (.array [.name "inner" ⟨0, 0, 1⟩] ⟨0, 0, 1⟩)) ⟨0, 0, 1⟩] ⟨0, 0, 1⟩,
    .assign "kept" (.call (.name "make" ⟨0, 0, 1⟩) [] ⟨0, 0, 1⟩) ⟨0, 0, 1⟩]

open Session in
/-- The frame of a call that ended lives on in an array, and from there the global names can be seen. -/
theorem frames_lead_to_globals_handOut :
    ∃ (s : Session) (c : Closure) (chain : List FrameId), .closure c ∈ s.machine.store.items 0 ∧ c.home = 1 ∧
      s.machine.store.scopes.Chain c.home chain ∧ (s.machine.store.scopes.get? c.home "kept").isSome = true := by
  let s₀ := Session.new .empty .default (.script (.ofInputs []))
  -- What is seen of the run: where the first element of the array is from, and whether the global name is there.
  let seen (s : Session) : Option (Option Location) × Bool :=
    ((s.machine.store.items 0)[0]?.map Value.location?,
      (s.machine.store.scopes.slots Store.globals).contains "kept")
  have hrun : (s₀.drive .idle () 40 (s₀.machine.undertake (.program handOut))).map (fun r => seen r.2.2) =
      some (some (some (.frame 1)), true) := by decide +kernel
  obtain ⟨⟨result, state, s⟩, hd, hseen⟩ := Option.map_eq_some_iff.1 hrun
  obtain ⟨hitem, hkept⟩ := Prod.mk.inj hseen
  obtain ⟨v, hv, hlocation⟩ := Option.map_eq_some_iff.1 hitem
  obtain ⟨c, rfl, hhome⟩ : ∃ c, v = .closure c ∧ c.home = 1 := by
    cases v with
    | closure c => exact ⟨c, rfl, Location.frame.inj (Option.some.inj hlocation)⟩
    | _ => cases hlocation
  have hc := Array.mem_of_getElem? hv
  have hs : Session.Owned .empty .default (.script (.ofInputs [])) s :=
    .step (.new _) (.task .idle (t := .program handOut) trivial hd)
  obtain ⟨chain, hchain, -, -, -, hresolves⟩ :=
    frames_lead_to_globals _ _ _ s hs s.machine (Or.inl rfl) c.home (.element hc)
  exact ⟨s, c, chain, hc, hhome, hchain, hresolves "kept" hkept⟩

end StepScript
