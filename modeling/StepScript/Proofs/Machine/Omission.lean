import StepScript.Proofs.Machine.Accounting
import StepScript.Proofs.Machine.Mirror
import StepScript.Proofs.Machine.Trailing

/-!
# Blocks that can be left out

A block around a single statement is entered and left in steps that show nothing (`Quiet`). So a machine that runs a
statement with such blocks can always catch up with one that runs it without them (`Mirrors.ready`), and then both make
the same step (`joint_inStep`): the one run trails the other.

The result is that the two runs are alike (`alike_of_clad`): an observer who sees nothing of the frames sees the same,
and where one run comes to rest, the other does, too, with the same outcome and the same variables in the frames that
there were.
-/

namespace StepScript

/-- An observer who does not hold a run and sees nothing of its frames, only the events, the calls in progress and the
number of the top-level statement. -/
structure Observer.Remote {σ : Type} (o : Observer σ) : Prop where
  sees : ∀ s m m' e, m.calls = m'.calls → m.cursor = m'.cursor → o.see s m e = o.see s m' e
  lets : ∀ s m e, (o.see s m e).2.course ≠ .hold

/-- The plain run on a console is watched by such an observer. -/
theorem remote_idle : Hook.idle.observer.Remote := by
  refine ⟨?_, ?_⟩
  · intro s m m' e _ _
    cases e <;> rfl
  · intro s m e h
    cases e <;> cases h

/-- Whether a statement ends, with a return or a failure or with neither. -/
def Focus.isClosing : Focus → Bool
  | .done | .leave _ | .fail _ => true
  | _ => false

theorem Focus.of_isClosing {f : Focus} (h : f.isClosing = true) :
    f = .done ∨ (∃ v, f = .leave v) ∨ ∃ d, f = .fail d := by
  cases f with
  | done => exact Or.inl rfl
  | leave v => exact Or.inr (Or.inl ⟨v, rfl⟩)
  | fail d => exact Or.inr (Or.inr ⟨d, rfl⟩)
  | _ => cases h

/-! ## Another frame is folded away -/

section Extend

variable {site : List Pending → Prop} {F G : Fold} {k : Nat}

/-- The value refers to no frame from `k` on. -/
def Value.Below (k : Nat) (v : Value) : Prop := ∀ f, v.location? = some (.frame f) → f < k

theorem rename_extend (h : Fold.Extends k F G) {v : Value} (hv : v.Below k) : v.rename G.place = v.rename F.place :=
  Value.rename_congr fun f hf => h.place f (hv f hf)

theorem Pending.Like.extend (h : Fold.Extends k F G) {rest : List Pending} {w' w : Pending}
    (hw : w'.Like site F rest w) (hv : ∀ v ∈ w'.values, v.Below k) : w'.Like site G rest w := by
  have hrename := Pending.rename_congr fun v hm => rename_extend h (hv v hm)
  cases w' with
  | test | again => exact hw
  | _ => exact Eq.trans hw hrename.symm

theorem Aligned.extend {b : Bool} {f : FrameId} {p' p : List Pending} (ha : Aligned site F b f p' p)
    (h : Fold.Extends k F G) (hf : f < k) (hv : ∀ w ∈ p', ∀ v ∈ w.values, v.Below k)
    (ho : ∀ w ∈ p', ∀ g, w.outer? = some g → g < k) : Aligned site G b f p' p := by
  induction ha with
  | nil hg => exact .nil fun hn => hg ((h.gone _ hf).1 hn)
  | work hr hw hd _ ih =>
    obtain ⟨hvw, hv⟩ := List.forall_mem_cons.1 hv
    obtain ⟨-, ho⟩ := List.forall_mem_cons.1 ho
    exact .work hr (Pending.Like.extend h hw hvw) (fun hg => hd ((h.gone _ hf).1 hg)) (ih hf hv ho)
  | block hg hr _ ih =>
    obtain ⟨-, hv⟩ := List.forall_mem_cons.1 hv
    obtain ⟨how, ho⟩ := List.forall_mem_cons.1 ho
    have houter := how _ rfl
    rw [← h.place _ houter]
    exact .block (fun hn => hg ((h.gone _ hf).1 hn)) hr (ih houter hv ho)
  | call hg _ ih =>
    obtain ⟨-, hv⟩ := List.forall_mem_cons.1 hv
    obtain ⟨how, ho⟩ := List.forall_mem_cons.1 ho
    have houter := how _ rfl
    rw [← h.place _ houter]
    exact .call (fun hn => hg ((h.gone _ hf).1 hn)) (ih houter hv ho)
  | fold hg hto hs _ ih =>
    obtain ⟨-, hv⟩ := List.forall_mem_cons.1 hv
    obtain ⟨how, ho⟩ := List.forall_mem_cons.1 ho
    have houter := how _ rfl
    refine .fold ((h.gone _ hf).2 hg) ?_ hs (ih houter hv ho)
    rw [h.place _ hf, h.place _ houter, hto]

end Extend

namespace Machine

/-! ## Steps that show nothing -/

theorem statement_ne_line : Product.statement ≠ .line := by
  intro h
  cases h

/-- A machine at work on a statement, with rooted frames. -/
structure Steady (m : Machine) : Prop where
  rooted : m.Rooted
  working : ∃ home, Working [] home .statement m

theorem Steady.move {m m₁ : Machine} (h : Steady m) (hb : ¬m.Back []) {xs : List Shown} (hm : Move m xs m₁) :
    Steady m₁ := by
  obtain ⟨home, hw⟩ := h.working
  exact ⟨h.rooted.move hm, home, hm.working hw statement_ne_line hb⟩

theorem Steady.quiet {m m₁ : Machine} (h : Steady m) (hq : Relation.ReflTransGen Quiet m m₁) : Steady m₁ := by
  induction hq with
  | refl => exact h
  | tail _ hs ih => exact ih.move hs.1 (.step hs.2.2)

/-! ## What a rooted machine has in hand -/

section Rooted

variable {m : Machine}

theorem below_of_lies {s : Store} {v : Value} (h : v.Lies s.Exists) : v.Below s.scopes.size :=
  fun f hf => h (.frame f) hf

/-- What a rooted machine has in hand lies below the frames to come. -/
theorem Rooted.below_pending (h : m.Rooted) : ∀ w ∈ m.pending, ∀ v ∈ w.values, v.Below m.store.scopes.size := by
  obtain ⟨inner, hi, hin⟩ := h.ranges.work
  rw [List.append_nil] at hi
  intro w hw v hv
  rw [hi] at hw
  refine below_of_lies ((hin w hw).values v ?_)
  cases w with
  | program => cases hv
  | _ => exact hv

theorem Rooted.outer_lt (h : m.Rooted) : ∀ w ∈ m.pending, ∀ f, w.outer? = some f → f < m.store.scopes.size :=
  fun _ hw _ hf => h.meets (.outer hw hf)

theorem Rooted.below_slots (h : m.Rooted) {f : FrameId} {x : String} {v : Value}
    (hv : (m.store.scopes.slots f).find? x = some v) : v.Below m.store.scopes.size := by
  by_cases hf : f < m.store.scopes.size
  · exact below_of_lies (h.ranges.store.slots f x v hf hv)
  · rw [Scopes.slots_of_le (Nat.not_lt.1 hf)] at hv
    cases hv

theorem Rooted.below_arrays (h : m.Rooted) {items : Array Value} (hi : items ∈ m.store.arrays) :
    ∀ v ∈ items, v.Below m.store.scopes.size := by
  intro v hv
  obtain ⟨id, hid, rfl⟩ := Array.mem_iff_getElem.1 hi
  refine below_of_lies (h.ranges.store.items id v hid ?_)
  rw [Store.items, Array.getElem?_eq_getElem hid]
  exact hv

end Rooted

/-! ## Blocks that are entered and left on one side only -/

section Quiet

variable {n : Nat} {site : List Pending → Prop} {F : Fold} {b : Bool} {m' m : Machine}

/-- The machine inside a block around one statement. -/
def inside (m : Machine) (s : Stmt) : Machine :=
  { m with
    focus := .start s
    pending := .block m.here [] :: m.pending
    here := m.store.scopes.size
    store := m.store.mapScopes (Scopes.child · m.here) }

/-- A block is entered without an event. -/
theorem quiet_inside {s : Stmt} {span : Span} (hm : m.focus = .start (.block [s] span)) (hs : m.stopped = false) :
    Relation.ReflTransGen Quiet m (m.inside s) := by
  have hstart : Quiet m (m.turn (.exec (.block [s] span))) := by
    refine ⟨fun hb => ?_, by rw [waiting?, hm], ?_⟩
    · rw [Back, hm] at hb
      cases hb.2
    · simp only [step, hm, startStatement, hs]
      rfl
  have hexec : Quiet (m.turn (.exec (.block [s] span))) ((m.enter m.here).push .done (.block m.here [s])) := by
    refine ⟨fun hb => ?_, rfl, rfl⟩
    cases hb.2
  have hdone : Quiet ((m.enter m.here).push .done (.block m.here [s])) (m.inside s) := by
    refine ⟨fun hb => ?_, rfl, rfl⟩
    cases hb.1
  exact ((Relation.ReflTransGen.single hstart).tail hexec).tail hdone

/-- **The first machine enters a block that the second lacks**, and its frame is folded away. -/
theorem Mirrors.inside (h : Mirrors n site F b m' m) (hr : m'.Rooted) {s' s : Stmt} (hm : m.focus = .start s)
    (hsite : site m.pending) (hd : s.declares = false) (ha : Akin site m.pending s' s) :
    Mirrors n site (F.add m'.store.scopes.size (F.place m'.here) m.store.scopes.size) false (m'.inside s') m := by
  have hhere : m'.here < m'.store.scopes.size := hr.ranges.here
  have hext : Fold.Extends m'.store.scopes.size F
      (F.add m'.store.scopes.size (F.place m'.here) m.store.scopes.size) := Fold.extends_add
  refine ⟨⟨.fold (Or.inr rfl) ?_ hsite (h.pending.extend hext hhere hr.below_pending hr.outer_lt), ?_, h.calls, ?_,
    h.stopped, h.cursor, h.settings⟩, ⟨s, hm, .akin ha⟩, fun _ => by rw [hm]; exact hd⟩
  · show (F.add m'.store.scopes.size (F.place m'.here) m.store.scopes.size).place m'.store.scopes.size = _
    rw [Fold.add_place_self, hext.place _ hhere]
  · show m.here = (F.add m'.store.scopes.size (F.place m'.here) m.store.scopes.size).place m'.store.scopes.size
    rw [Fold.add_place_self]
    exact h.here
  · refine ⟨⟨?_, h.store.closures, h.store.random⟩, ?_⟩
    · rw [h.store.arrays]
      refine Array.map_congr_left fun items hi => Array.map_congr_left fun v hv => ?_
      exact (rename_extend hext (hr.below_arrays hi v hv)).symm
    · exact h.store.scopes.fold hhere fun f x v hv => rename_extend hext (hr.below_slots hv)

/-- A block at its end is left without an event. -/
theorem quiet_back {outer : FrameId} {rest : List Pending} (hf : m.focus.isClosing = true)
    (hp : m.pending = .block outer [] :: rest) : Quiet m { m with pending := rest, here := outer } := by
  have hb : ¬m.Back [] := fun hb => by
    rw [hb.1] at hp
    cases hp
  rcases Focus.of_isClosing hf with hm | ⟨v, hm⟩ | ⟨d, hm⟩
  · exact ⟨hb, by rw [waiting?, hm], step_done hm hp⟩
  · exact ⟨hb, by rw [waiting?, hm], step_leave hm hp⟩
  · exact ⟨hb, by rw [waiting?, hm], step_fail hm hp⟩

/-- **The first machine comes back from blocks that the second lacks.** -/
theorem Mirrors.back (h : Mirrors n site F b m' m) (hf : m'.focus.isClosing = true) :
    ∃ m₁', Relation.ReflTransGen Quiet m' m₁' ∧ Mirrors n site F true m₁' m ∧ m₁'.focus = m'.focus := by
  generalize hp : m'.pending = p at *
  induction p generalizing m' b with
  | nil =>
    have ha := h.pending
    rw [hp] at ha
    cases b with
    | true => exact ⟨m', .refl, h, rfl⟩
    | false => cases ha
  | cons w p ih =>
    cases b with
    | true => exact ⟨m', .refl, h, rfl⟩
    | false =>
      have ha := h.pending
      rw [hp] at ha
      cases ha with
      | @fold b _ outer _ _ hg hto hs ha =>
        have hback : Mirrors n site F b { m' with pending := p, here := outer } m :=
          ⟨⟨ha, h.here.trans hto, h.calls, h.store, h.stopped, h.cursor, h.settings⟩, h.focus, fun _ => h.undeclared hg⟩
        obtain ⟨m₁', hq, hm₁, hfocus⟩ := ih hback hf rfl
        exact ⟨m₁', .head (quiet_back hf hp) hq, hm₁, hfocus⟩

/-- **The first machine makes itself ready** for the next step of the second by steps that show nothing. -/
theorem Mirrors.ready (h : Mirrors n site F b m' m) (hs : Steady m') :
    ∃ G b₁ m₁', Relation.ReflTransGen Quiet m' m₁' ∧ Mirrors n site G b₁ m₁' m ∧ Ready site b₁ m₁' m := by
  obtain ⟨home, hw⟩ := hs.working
  -- What waits for a value or a line is no block.
  have hlevel : (∀ w rest, m'.pending = w :: rest → w.takes ≠ .statement) → b = true := by
    intro ht
    have ha := h.pending
    cases b with
    | true => rfl
    | false =>
      generalize hp : m'.pending = p' at ha ht
      cases ha
      exact absurd rfl (ht _ _ rfl)
  cases hm' : m'.focus with
  | start s' =>
    have hf := h.focus
    rw [hm'] at hf
    obtain ⟨s, hm, hclad⟩ := hf
    have hready : ∀ {b₁ : Bool} {m₁' : Machine} {s₁ : Stmt}, m₁'.focus = .start s₁ →
        (m₁'.stopped = true ∨ Akin site m.pending s₁ s) → Ready site b₁ m₁' m := by
      intro b₁ m₁' s₁ hs₁ ha
      refine ⟨fun hd => ?_, fun t' t ht' ht => ?_⟩
      · rw [hs₁] at hd
        cases hd
      · rw [hs₁] at ht'
        rw [hm] at ht
        cases ht'
        cases ht
        exact ha
    cases hclad with
    | akin ha => exact ⟨F, b, m', .refl, h, hready hm' (Or.inr ha)⟩
    | wrap hsite hd ha =>
      cases hstopped : m'.stopped with
      | true => exact ⟨F, b, m', .refl, h, hready hm' (Or.inl hstopped)⟩
      | false =>
        exact ⟨_, false, _, quiet_inside hm' hstopped, h.inside hs.rooted hm hsite hd ha, hready rfl (Or.inr ha)⟩
  | exec | eval | apply =>
    refine ⟨F, b, m', .refl, h, fun hd => ?_, fun s' s hs' => ?_⟩
    · rw [hm'] at hd
      cases hd
    · rw [hm'] at hs'
      cases hs'
  | await prompt =>
    obtain ⟨keep, span, rest, hp⟩ := hw.reply statement_ne_line hm'
    refine ⟨F, b, m', .refl, h, fun _ => hlevel fun w rest₁ hw₁ => ?_, fun s' s hs' => ?_⟩
    · rw [hp] at hw₁
      cases hw₁
      exact nofun
    · rw [hm'] at hs'
      cases hs'
  | give v =>
    refine ⟨F, b, m', .refl, h, fun _ => hlevel fun w rest hp => ?_, fun s' s hs' => ?_⟩
    · have hb : ¬m'.Back [] := fun hb => by
        rw [hb.1] at hp
        cases hp
      rw [hw.takes_value hb v w rest hm' hp]
      exact nofun
    · rw [hm'] at hs'
      cases hs'
  | done | leave | fail =>
    obtain ⟨m₁', hq, hm₁, hfocus⟩ := h.back (by rw [hm']; rfl)
    refine ⟨F, true, m₁', hq, hm₁, fun _ => rfl, fun s' s hs' => ?_⟩
    rw [hfocus, hm'] at hs'
    cases hs'

end Quiet

/-! ## Runs -/

/-- Two machines that came to rest agree: how the work ended or what is asked, the frames and all other data, with the
frames of the first folded by `F`, none of the first `n`. -/
structure Agrees (n : Nat) (F : Fold) (m' m : Machine) : Prop where
  focus : m.focus = m'.focus.rename F.place
  ended : m.pending = [] ↔ m'.pending = []
  here : m.here = F.place m'.here
  calls : m.calls = m'.calls
  store : m'.store.Folds n F m.store
  stopped : m.stopped = m'.stopped

/-- Two runs cannot be told apart by their observer, and where one comes to rest the other does, too, in agreement. -/
structure Alike {σ : Type} (o : Observer σ) (n : Nat) (s : σ) (m' m : Machine) : Prop where
  seen : ∀ s₁, (∃ m₁', During o s m' s₁ m₁') ↔ ∃ m₁, During o s m s₁ m₁
  first : ∀ fuel s₁ m₁', m'.run o fuel s = some (s₁, m₁') →
    ∃ fuel m₁ F, m.run o fuel s = some (s₁, m₁) ∧ Agrees n F m₁' m₁
  second : ∀ fuel s₁ m₁, m.run o fuel s = some (s₁, m₁) →
    ∃ fuel m₁' F, m'.run o fuel s = some (s₁, m₁') ∧ Agrees n F m₁' m₁

/-- Machines that agree bind the same names in the frames that there were. -/
theorem Agrees.binds_iff {n : Nat} {F : Fold} {m' m : Machine} (h : Agrees n F m' m) {f : FrameId} (hf : f < n)
    (x : String) : m.store.scopes.Binds f x ↔ m'.store.scopes.Binds f x := by
  obtain ⟨hto, hkept⟩ := h.store.scopes.kept f hf
  have hslots := h.store.scopes.slots f (Nat.lt_of_lt_of_le hf h.store.scopes.le) hkept x
  rw [hto] at hslots
  rw [Scopes.Binds, Scopes.Binds, Bindings.contains, Bindings.contains, hslots, Option.isSome_map]

section Runs

variable {σ : Type} {o : Observer σ} {n : Nat} {site : List Pending → Prop} {F : Fold} {b : Bool} {m' m : Machine}

/-- At rest, mirrored machines agree. -/
theorem Mirrors.agrees (h : Mirrors n site F true m' m) (hd : m'.focus.isDue = true) : Agrees n F m' m := by
  have hf := h.focus
  have ha := h.pending
  refine ⟨?_, ⟨fun hp => ?_, fun hp => ?_⟩, h.here, h.calls, h.store, h.stopped⟩
  · cases hm' : m'.focus with
    | start | exec =>
      rw [hm'] at hd
      cases hd
    | _ =>
      rw [hm'] at hf
      exact hf
  · rw [hp] at ha
    generalize m'.pending = p' at ha ⊢
    cases ha
    rfl
  · rw [hp] at ha
    exact ha.eq_nil

theorem isDue_of_isOutcome {f : Focus} (h : f.isOutcome = true) : f.isDue = true := by
  cases f with
  | start | exec | eval | apply => cases h
  | _ => rfl

/-- What is seen of the focus from outside is the same. -/
theorem Mirrors.outward (h : Mirrors n site F b m' m) :
    m.focus.isOutcome = m'.focus.isOutcome ∧ m.waiting? = m'.waiting? := by
  have hf := h.focus
  unfold waiting?
  cases hm' : m'.focus with
  | start | exec =>
    rw [hm'] at hf
    obtain ⟨s, hm, -⟩ := hf
    rw [hm]
    exact ⟨rfl, rfl⟩
  | _ =>
    rw [hm'] at hf
    rw [show m.focus = _ from hf]
    exact ⟨rfl, rfl⟩

/-- If one is at its end, so is the other. -/
theorem Mirrors.back_iff (h : Mirrors n site F b m' m) (hr : Ready site b m' m) : m.Back [] ↔ m'.Back [] := by
  have houtcome := h.outward.1
  have hpending : m'.focus.isOutcome = true → (m.pending = [] ↔ m'.pending = []) := fun ho => by
    have hd := isDue_of_isOutcome ho
    obtain rfl := hr.level hd
    exact (h.agrees hd).ended
  refine ⟨fun hb => ?_, fun hb => ?_⟩
  · have ho := houtcome ▸ hb.2
    exact ⟨(hpending ho).1 hb.1, ho⟩
  · exact ⟨(hpending hb.2).2 hb.1, houtcome.trans hb.2⟩

/-- A read that both wait with is answered, or left open. -/
theorem Mirrors.advance_await (h : Mirrors n site F true m' m) (hst : Steady m') {prompt : String}
    (hm' : m'.focus = .await prompt) (hm : m.focus = .await prompt) (s : σ) :
    (∃ s₁ m₁' m₁ b₁, m'.advance o s = .going s₁ m₁' ∧ m.advance o s = .going s₁ m₁ ∧ Steady m₁' ∧
        Mirrors n site F b₁ m₁' m₁) ∨
      ∃ s₁, m'.advance o s = .resting s₁ m' ∧ m.advance o s = .resting s₁ m ∧ Agrees n F m' m := by
  obtain ⟨home, hw⟩ := hst.working
  have hb : ¬m'.Back [] := fun hb => by
    rw [Back, hm'] at hb
    cases hb.2
  simp only [Machine.advance, hm', hm]
  obtain ⟨s₁, reply⟩ := o.ask s prompt
  cases reply with
  | none => exact Or.inr ⟨s₁, rfl, rfl, h.agrees (by rw [hm']; rfl)⟩
  | some reply =>
    obtain ⟨keep, span, rest, hp⟩ := hw.reply statement_ne_line hm'
    obtain ⟨b₁, hm₁⟩ := h.answer hm' hp reply
    exact Or.inl ⟨s₁, _, _, b₁, rfl, rfl, hst.move hb (.answer reply hm'), hm₁⟩

/-- **Watched steps in step**: both go on, or both come to rest. -/
theorem Mirrors.advance (ho : o.Remote) (h : Mirrors n site F b m' m) (hr : Ready site b m' m) (hst : Steady m')
    (hs : Spares site m) (s : σ) :
    (∃ s₁ m₁' m₁ b₁, m'.advance o s = .going s₁ m₁' ∧ m.advance o s = .going s₁ m₁ ∧ Steady m₁' ∧
        Mirrors n site F b₁ m₁' m₁) ∨
      ∃ s₁, m'.advance o s = .resting s₁ m' ∧ m.advance o s = .resting s₁ m ∧ Agrees n F m' m := by
  have hwait := h.outward.2
  cases hw' : m'.waiting? with
  | some prompt =>
    have hm' := focus_of_waiting? hw'
    have hm := focus_of_waiting? (hwait.trans hw')
    obtain rfl := hr.level (by rw [hm']; rfl)
    exact h.advance_await hst hm' hm s
  | none =>
    by_cases hb : m'.Back []
    · obtain ⟨result', hfinished'⟩ := finished?_of_back hb
      obtain ⟨result, hfinished⟩ := finished?_of_back ((h.back_iff hr).2 hb)
      have hd := isDue_of_isOutcome hb.2
      obtain rfl := hr.level hd
      exact Or.inr ⟨s, advance_finished o s hfinished', advance_finished o s hfinished, h.agrees hd⟩
    · have hb₁ : ¬m.Back [] := fun hm => hb ((h.back_iff hr).1 hm)
      obtain ⟨home, hw⟩ := hst.working
      obtain ⟨⟨b₁, hm₁⟩, hevent⟩ := h.step hr (hw.takes_value hb) hs
      rw [advance_unheld ho.lets s hw' hb, advance_unheld ho.lets s (hwait.trans hw') hb₁]
      generalize hstep' : m'.step = r' at hm₁ hevent
      generalize m.step = r at hm₁ hevent
      obtain ⟨m₁', e'⟩ := r'
      obtain ⟨m₁, e⟩ := r
      obtain rfl : e = e' := hevent
      left
      cases e with
      | none => exact ⟨s, m₁', m₁, b₁, rfl, rfl, hst.move hb (.step hstep'), hm₁⟩
      | some e =>
        have hsees : o.see s m₁ e = o.see s m₁' e := ho.sees s m₁ m₁' e hm₁.calls hm₁.cursor
        dsimp only
        rw [hsees]
        exact ⟨_, _, _, b₁, rfl, rfl, hst.move hb (.event _ hstep'), hm₁.heed _⟩

/-! The moments of two runs -/

/-- The first machine mirrors the second and is ready for its next step. -/
def InStep (n : Nat) (site : List Pending → Prop) (m' m : Machine) : Prop :=
  ∃ F b, Steady m' ∧ Mirrors n site F b m' m ∧ Ready site b m' m

theorem Mirrors.trails (h : Mirrors n site F b m' m) (hst : Steady m') : Trails (InStep n site) m' m := by
  obtain ⟨G, b₁, m₁', hq, hm₁, hr⟩ := h.ready hst
  exact ⟨m₁', hq, G, b₁, hst.quiet hq, hm₁, hr⟩

variable {s s₁ : σ} {m₁' m₁ : Machine}

/-- **Mirrored machines make their watched steps alike**, as long as the second spares the places. -/
theorem joint_inStep (ho : o.Remote) :
    Joint o (InStep n site) (fun m' m => ∃ F, Agrees n F m' m) (fun m => ¬Spares site m) := by
  rintro s m' m ⟨F, b, hst, hm, hr⟩ hs
  rcases hm.advance ho hr hst (Classical.not_not.1 hs) s with
    ⟨s₁, m₁', m₁, b₁, ha', ha, hst₁, hm₁⟩ | ⟨s₁, ha', ha, hagrees⟩
  · exact Or.inl ⟨s₁, m₁', m₁, ha', ha, hm₁.trails hst₁⟩
  · exact Or.inr ⟨s₁, m', m, ha', ha, F, hagrees⟩

/-- **Runs alike**: a machine that trails another cannot be told from it. -/
theorem Trails.alike (ho : o.Remote) (ht : Trails (InStep n site) m' m)
    (hs : ∀ s₁ m₁, During o s m s₁ m₁ → Spares site m₁) : Alike o n s m' m := by
  obtain ⟨hseen, hfirst, hsecond⟩ := ht.twins (joint_inStep ho) fun s₁ m₁ hd => not_not_intro (hs s₁ m₁ hd)
  refine ⟨hseen, fun fuel s₁ m₁' hrun => ?_, fun fuel s₁ m₁ hrun => ?_⟩
  · obtain ⟨fuel, m₁, hr, F, hagrees⟩ := hfirst fuel s₁ m₁' hrun
    exact ⟨fuel, m₁, F, hr, hagrees⟩
  · obtain ⟨fuel, m₁', hr, F, hagrees⟩ := hsecond fuel s₁ m₁ hrun
    exact ⟨fuel, m₁', F, hr, hagrees⟩

/-! Settings -/

/-- A run goes by the same settings all along. -/
theorem During.settings (h : During o s m s₁ m₁) : m₁.settings = m.settings := by
  induction h with
  | start => rfl
  | going _ ha ih =>
    obtain ⟨-, xs, hm, -⟩ := move_of_going o.notes_nothing ha
    exact hm.settings.trans ih

/-- **Blocks around single statements can be left out.** Where variables are made in the current frame, none must be
made right inside one. -/
theorem alike_of_clad (ho : o.Remote) (hm : m.Rooted) (hp : m.pending = []) {t' t : Stmt} (hc : Clad site [] t' t)
    (hs : m.settings.assignScope = .current →
      ∀ s₁ m₁, During o s (m.undertake (.statement t)) s₁ m₁ → Spares site m₁) :
    Alike o m.store.scopes.size s (m.undertake (.statement t')) (m.undertake (.statement t)) := by
  have hst : Steady (m.undertake (.statement t')) := by
    refine ⟨hm.undertake trivial, m.place, ?_⟩
    have hw := working_undertake m (.statement t')
    rwa [hp] at hw
  have hstore : Store.Folds m.store.scopes.size .none m.store m.store := by
    refine ⟨⟨?_, rfl, rfl⟩, .refl hm.ranges.globals⟩
    have hid : Value.rename Fold.none.place = id := funext Value.rename_id
    rw [hid, Array.map_id_fun, Array.map_id_fun]
    rfl
  have hmirrors : Mirrors m.store.scopes.size site .none true (m.undertake (.statement t'))
      (m.undertake (.statement t)) := by
    refine ⟨⟨?_, rfl, rfl, hstore, rfl, rfl, rfl⟩, ?_, False.elim⟩
    · show Aligned site .none true m.here m.pending m.pending
      rw [hp]
      exact .nil not_false
    · show ∃ s, Focus.start t = .start s ∧ Clad site m.pending t' s
      rw [hp]
      exact ⟨t, rfl, hc⟩
  refine (hmirrors.trails hst).alike ho fun s₁ m₁ hd hcurrent => ?_
  have hsettings : m₁.settings = m.settings := hd.settings
  exact hs (hsettings ▸ hcurrent) s₁ m₁ hd hcurrent

end Runs

end Machine

end StepScript
