import StepScript.Proofs.Machine.Names
import StepScript.Proofs.Machine.Rooted
import StepScript.Proofs.Value.Lists

/-!
# Arrays in a run

A machine comes to operations on arrays one at a time (`Machine.asks?`). The step that carries one out has its effect on
the lists (`effect_step`), and every other move leaves the lists alone (`arrays_move`). Arrays may lie in variables, in
other arrays or in themselves: what is in hand of them is their identity.

`Does base m deeds m'` says that moves lead from `m` to `m'` and carry out the operations `deeds`. The lists of the store
then follow them one by one (`Lists.Follow`), and an array that is made has an identity that no value had before.
-/

namespace StepScript

/-- The operation that a piece of pending work makes of a value. -/
def Pending.asks? (v : Value) : Pending → Option ArrayOp
  | item before [] => some (.make (v :: before).reverse)
  | property name _ =>
    match v with
    | .array id => if name = "length" then some (.length id) else none
    | _ => none
  | index (.array id) _ => some (.read id v)
  | setObject _ _ _ =>
    match v with
    | .null => some .writeNull
    | _ => none
  | setValue target place _ => some (.write target place v)
  | _ => none

namespace Machine

/-- The operation that a machine has come to. -/
def asks? (m : Machine) : Option ArrayOp :=
  match m.focus with
  | .eval (.array [] _) => some (.make [])
  | .apply (.native f) args _ => if f.arity.accepts args.length then f.builtin.arrayOp? m.store args else none
  | .give v => m.pending.head?.bind (·.asks? v)
  | _ => none

/-- The machine has come to a value, or to a failure if there is none. -/
inductive Gives (m : Machine) : Option Value → Prop
  | value {v : Value} : m.focus = .give v → Gives m (some v)
  | failure {d : Diagnostic} : m.focus = .fail d → Gives m none

/-- The values that a machine has: in hand, bound in frames and in arrays. -/
inductive Has (m : Machine) (v : Value) : Prop
  | focus : v ∈ m.focus.values → Has m v
  | pending {w : Pending} : w ∈ m.pending → v ∈ w.holds m.latest → Has m v
  | bound {f : FrameId} {x : String} : (m.store.scopes.slots f).find? x = some v → Has m v
  | element {id : ArrayId} : v ∈ m.store.items id → Has m v

section Rooted

variable {m : Machine} {v : Value}

/-- What a rooted machine has refers to places that there are. -/
theorem Rooted.lies (h : m.Rooted) (hv : m.Has v) : v.Lies m.store.Exists := by
  cases hv with
  | focus hv => exact h.ranges.focus v hv
  | @pending w hw hv =>
    obtain ⟨inner, hi, hin⟩ := h.ranges.work
    rw [List.append_nil] at hi
    rw [hi] at hw
    exact (hin w hw).values v hv
  | @bound f x hv =>
    by_cases hf : f < m.store.scopes.size
    · exact h.ranges.store.slots f x v hf hv
    · have hn : ¬f < m.store.scopes.frames.size := hf
      simp [Scopes.slots, hn] at hv
  | @element id hv =>
    by_cases hid : id < m.store.arrays.size
    · exact h.ranges.store.items id v hid hv
    · rw [Store.items, Array.getElem?_eq_none (Nat.not_lt.1 hid)] at hv
      cases hv.val

theorem Rooted.knows (h : m.Rooted) (hv : m.Has v) : m.store.Knows v := by
  rintro id rfl
  exact h.lies hv (.array id) rfl

/-- No value is an array that is not there. -/
theorem Rooted.ne_array (h : m.Rooted) (hv : m.Has v) : v ≠ .array m.store.arrays.size := by
  intro heq
  exact Nat.lt_irrefl _ (h.knows hv _ heq)

end Rooted

/-! ## The step that carries an operation out -/

section Effect

variable {m : Machine} {op : ArrayOp}

theorem gives_settle (m : Machine) (span : Span) (r : Except RuntimeFault Value) :
    (m.settle span r).Gives r.toOption ∧ (m.settle span r).store = m.store := by
  cases r with
  | ok v => exact ⟨.value rfl, rfl⟩
  | error f => exact ⟨.failure rfl, rfl⟩

theorem gives_takeAnswer (m : Machine) (span : Span) {a : Answer} {outcome : Option Value} (h : a.Gives outcome) :
    (m.takeAnswer span a).2 = none ∧ (m.takeAnswer span a).1.Gives outcome ∧
      (m.takeAnswer span a).1.store = m.store := by
  cases h with
  | value v => exact ⟨rfl, .value rfl, rfl⟩
  | fault f => exact ⟨rfl, .failure rfl, rfl⟩

theorem effect_runBuiltin {b : Builtin} {args : List Value} (hargs : ∀ v ∈ args, m.store.Knows v)
    (hop : b.arrayOp? m.store args = some op) (span : Span) :
    let effect := op.effect m.store.lists m.store.arrays.size
    (m.runBuiltin b args span).2 = none ∧ (m.runBuiltin b args span).1.Gives effect.1 ∧
      (m.runBuiltin b args span).1.store.lists = effect.2 := by
  obtain ⟨hanswer, hlists⟩ := Builtin.run_effect hargs hop
  obtain ⟨hevent, hgives, hstore⟩ := gives_takeAnswer { m with store := (b.run args m.store).2 } span hanswer
  exact ⟨hevent, hgives, (congrArg Store.lists hstore).trans hlists⟩

/-- What pending work makes of a value has the effect of its operation. -/
theorem effect_takeValue {w : Pending} {v : Value} (hop : w.asks? v = some op) (hv : m.store.Knows v)
    (hw : ∀ u ∈ w.holds m.latest, m.store.Knows u)
    (hfits : ∀ id index, op = .read id index → (m.store.items id).size ≤ Number.maxUnsigned) :
    let effect := op.effect m.store.lists m.store.arrays.size
    (m.takeValue v w).1.Gives effect.1 ∧ (m.takeValue v w).1.store.lists = effect.2 := by
  cases w with
  | item before rest =>
    cases rest with
    | nil =>
      cases hop
      exact ⟨.value rfl, lists_push rfl⟩
    | cons e rest => cases hop
  | property name span =>
    cases v with
    | array id =>
      simp only [Pending.asks?] at hop
      split at hop
      · rename_i hname
        cases hop
        obtain ⟨hgives, hstore⟩ := gives_settle m span (readProperty m.store (.array id) name)
        have hread : readProperty m.store (.array id) name = .ok (.number (Float.ofNat (m.store.items id).size)) :=
          if_pos hname
        rw [hread] at hgives hstore
        simp only [takeValue, ArrayOp.effect, lists_of_lt (hv id rfl), Option.map_some, Array.length_toList, hread]
        exact ⟨hgives, congrArg Store.lists hstore⟩
      · cases hop
    | _ => cases hop
  | index object span =>
    cases object with
    | array id =>
      cases hop
      obtain ⟨hgives, hstore⟩ := gives_settle m span (readElement m.store (.array id) v)
      have hid : id < m.store.arrays.size := hw (.array id) (by simp [Pending.holds, Pending.values]) id rfl
      rw [readElement_effect hid (hfits id v rfl) m.store.arrays.size] at hgives
      exact ⟨hgives, congrArg Store.lists hstore⟩
    | _ => cases hop
  | setObject index value span =>
    cases v with
    | null =>
      cases hop
      exact ⟨.failure rfl, rfl⟩
    | _ => cases hop
  | setValue object index span =>
    cases hop
    have hobject : m.store.Knows object := hw object (by simp [Pending.holds, Pending.values])
    rcases writePlace_effect (v := v) hobject m.store.arrays.size with ⟨id, i, hplace, rfl, heffect⟩ | ⟨f, hplace, heffect⟩
    · rw [heffect]
      simp only [takeValue, hplace]
      have hlists := @lists_modify m.store (m.store.mapItems id (Store.writeAt · i v)) id (Store.writeAt · i v) rfl
        (hobject id rfl)
      rw [toList_writeAt] at hlists
      exact ⟨.value rfl, hlists⟩
    · rw [heffect]
      simp only [takeValue, hplace]
      exact ⟨.failure rfl, rfl⟩
  | _ => cases hop

theorem event_takeValue {w : Pending} {v : Value} (hop : w.asks? v = some op) : (m.takeValue v w).2 = none := by
  cases w with
  | item before rest => cases rest <;> rfl
  | property | index => rfl
  | setObject => cases v <;> rfl
  | setValue =>
    simp only [takeValue]
    split <;> rfl
  | _ => cases hop

/-- Where the operation that a machine has come to is from: a literal without elements, a builtin, or a value that is
handed to pending work. -/
inductive Asking (m : Machine) (op : ArrayOp) : Prop
  | literal {span : Span} : m.focus = .eval (.array [] span) → op = .make [] → Asking m op
  | builtin {f : Native} {args : List Value} {span : Span} : m.focus = .apply (.native f) args span →
      f.arity.accepts args.length = true → f.builtin.arrayOp? m.store args = some op → Asking m op
  | value {v : Value} {w : Pending} {rest : List Pending} : m.focus = .give v → m.pending = w :: rest →
      w.asks? v = some op → Asking m op

theorem asking (hop : m.asks? = some op) : m.Asking op := by
  unfold asks? at hop
  cases hf : m.focus with
  | eval e =>
    rw [hf] at hop
    cases e with
    | array items span =>
      cases items with
      | nil => exact .literal hf (Option.some.inj hop).symm
      | cons e rest => cases hop
    | _ => cases hop
  | apply callee args span =>
    rw [hf] at hop
    cases callee with
    | native f =>
      simp only at hop
      split at hop
      · rename_i haccepts
        exact .builtin hf haccepts hop
      · cases hop
    | _ => cases hop
  | give v =>
    rw [hf] at hop
    obtain ⟨w, hw, hop⟩ := Option.bind_eq_some_iff.1 hop
    obtain ⟨rest, hp⟩ := List.head?_eq_some_iff.1 hw
    exact .value hf hp hop
  | _ =>
    rw [hf] at hop
    cases hop

theorem step_native {f : Native} {args : List Value} {span : Span} (hf : m.focus = .apply (.native f) args span)
    (ha : f.arity.accepts args.length = true) : m.step = m.runBuiltin f.builtin args span := by
  simp only [step, hf, applyValue]
  cases harity : f.arity with
  | fixed count =>
    rw [harity] at ha
    exact if_pos (eq_of_beq ha)
  | variadic => rfl

/-- The arguments of a call are known. -/
theorem Rooted.knows_args (hm : m.Rooted) {callee : Value} {args : List Value} {span : Span}
    (hf : m.focus = .apply callee args span) : ∀ v ∈ args, m.store.Knows v := by
  intro v hv
  refine hm.knows (.focus ?_)
  rw [hf]
  exact List.mem_cons_of_mem _ hv

/-- A step that carries an operation out shows nothing. -/
theorem event_step (hm : m.Rooted) (hop : m.asks? = some op) : m.step.2 = none := by
  cases asking hop with
  | literal hf _ => simp only [step, hf]
  | @builtin f args span hf ha hop =>
    rw [step_native hf ha]
    exact (effect_runBuiltin (hm.knows_args hf) hop span).1
  | value hf hp hop =>
    rw [step_give hf hp]
    exact event_takeValue hop

/-- **The step that carries an operation out has its effect.** -/
theorem effect_step (hm : m.Rooted) (hop : m.asks? = some op)
    (hfits : ∀ id index, op = .read id index → (m.store.items id).size ≤ Number.maxUnsigned) :
    let effect := op.effect m.store.lists m.store.arrays.size
    m.step.1.Gives effect.1 ∧ m.step.1.store.lists = effect.2 := by
  cases asking hop with
  | literal hf hop =>
    subst hop
    simp only [step, hf]
    exact ⟨.value rfl, lists_push rfl⟩
  | @builtin f args span hf ha hop =>
    rw [step_native hf ha]
    exact (effect_runBuiltin (hm.knows_args hf) hop span).2
  | @value v w rest hf hp hop =>
    rw [step_give hf hp]
    have hv : m.store.Knows v := hm.knows (.focus (by rw [hf]; exact List.mem_singleton.2 rfl))
    have hw : ∀ u ∈ w.holds m.latest, m.store.Knows u := fun u hu =>
      hm.knows (.pending (by rw [hp]; exact List.mem_cons_self) hu)
    exact @effect_takeValue { m with pending := rest } op w v hop hv hw hfits

end Effect

/-! ## All other moves -/

section Others

variable {m m' : Machine}

theorem arrays_execStatement (s : Stmt) : (m.execStatement s).store.arrays = m.store.arrays := by
  cases s with
  | input keyword prompt span =>
    cases prompt with
    | none => exact congrArg Store.arrays (store_request false span _).1
    | some e => rfl
  | leave value _ => cases value <;> rfl
  | _ => rfl

theorem arrays_evalExpression {e : Expr} (he : ∀ span, e ≠ .array [] span) :
    (m.evalExpression e).store.arrays = m.store.arrays := by
  cases e with
  | name x span =>
    simp only [evalExpression]
    split <;> rfl
  | array items span =>
    cases items with
    | nil => exact absurd rfl (he span)
    | cons e rest => rfl
  | _ => rfl

theorem arrays_runBuiltin {b : Builtin} {args : List Value} (hop : b.arrayOp? m.store args = none) (span : Span) :
    (m.runBuiltin b args span).1.store.arrays = m.store.arrays := by
  have hrun := Builtin.arrays_run hop
  show (takeAnswer { m with store := (b.run args m.store).2 } span (b.run args m.store).1).1.store.arrays = _
  cases (b.run args m.store).1 with
  | ask prompt => exact (congrArg Store.arrays (store_request true span prompt).1).trans hrun
  | _ => exact hrun

theorem arrays_applyValue {callee : Value} {args : List Value}
    (hop : ∀ f, callee = .native f → f.arity.accepts args.length = true → f.builtin.arrayOp? m.store args = none)
    (span : Span) : (m.applyValue callee args span).1.store.arrays = m.store.arrays := by
  unfold applyValue
  split
  · rename_i f
    split
    · rename_i count harity
      split
      · rename_i hcount
        exact arrays_runBuiltin (hop f rfl (by rw [harity, hcount]; exact beq_self_eq_true _)) span
      · rfl
    · rename_i harity
      exact arrays_runBuiltin (hop f rfl (by rw [harity]; rfl)) span
  · split
    · rfl
    · split <;> rfl
  · rfl

theorem arrays_takeValue {w : Pending} {v : Value} (hop : w.asks? v = none) :
    (m.takeValue v w).1.store.arrays = m.store.arrays := by
  cases w with
  | prompt span => exact congrArg Store.arrays (store_request false span _).1
  | combine op left span => exact congrArg Store.arrays (gives_settle m span _).2
  | unary op span => exact congrArg Store.arrays (gives_settle m span _).2
  | property x span => exact congrArg Store.arrays (gives_settle m span _).2
  | index object span => exact congrArg Store.arrays (gives_settle m span _).2
  | discard | test | logical =>
    simp only [takeValue]
    split <;> rfl
  | choose yes no =>
    simp only [takeValue]
    split
    · rfl
    · split <;> rfl
  | setValue => cases hop
  | write newline => cases newline <;> rfl
  | callee args span => cases args <;> rfl
  | argument callee before rest span => cases rest <;> rfl
  | item before rest =>
    cases rest with
    | nil => cases hop
    | cons e rest => rfl
  | setProperty | setObject => cases v <;> rfl
  | _ => rfl

theorem arrays_afterStatement (w : Pending) : (m.afterStatement w).store.arrays = m.store.arrays := by
  cases w with
  | block outer more => cases more <;> rfl
  | call outer more => cases more <;> rfl
  | program index more => cases more <;> rfl
  | _ => rfl

theorem arrays_step (hop : m.asks? = none) : m.step.1.store.arrays = m.store.arrays := by
  unfold asks? at hop
  cases hf : m.focus with
  | start s =>
    simp only [step, hf, startStatement]
    split
    · rfl
    · split <;> rfl
  | exec s =>
    simp only [step, hf]
    exact arrays_execStatement s
  | eval e =>
    simp only [step, hf]
    refine arrays_evalExpression fun span he => ?_
    rw [hf, he] at hop
    cases hop
  | apply callee args span =>
    simp only [step, hf]
    refine arrays_applyValue (fun f hcallee haccepts => ?_) span
    rw [hf, hcallee] at hop
    simpa only [if_pos haccepts] using hop
  | await prompt => simp only [step, hf]
  | give v =>
    cases hp : m.pending with
    | nil => simp only [step, hf, hp]
    | cons w rest =>
      rw [step_give hf hp]
      rw [hf, hp] at hop
      exact @arrays_takeValue { m with pending := rest } w v hop
  | done =>
    cases hp : m.pending with
    | nil => simp only [step, hf, hp]
    | cons w rest =>
      rw [step_done hf hp]
      exact @arrays_afterStatement { m with pending := rest } w
  | leave v =>
    cases hp : m.pending with
    | nil => simp only [step, hf, hp]
    | cons w rest => rw [step_leave hf hp]; cases w <;> rfl
  | fail d =>
    cases hp : m.pending with
    | nil => simp only [step, hf, hp]
    | cons w rest => rw [step_fail hf hp]; cases w <;> rfl

/-- **A move that carries no operation out leaves the arrays alone.** -/
theorem arrays_move {xs : List Shown} (hop : m.asks? = none) (hm : Move m xs m') :
    m'.store.arrays = m.store.arrays := by
  cases hm with
  | step hs =>
    have hstep := arrays_step hop
    rwa [hs] at hstep
  | event v hs =>
    have hstep := arrays_step hop
    rw [hs] at hstep
    rw [store_heed]
    exact hstep
  | answer r _ =>
    unfold Machine.answer
    split
    · cases r with
      | line text => dsimp only; split <;> rfl
      | cancelled => dsimp only; split <;> rfl
    · rfl
  | flag stopped => rfl

end Others

end Machine

/-! ## Runs -/

/-- An operation that was carried out, with the machines before and after it. -/
structure Deed where
  before : Machine
  op : ArrayOp
  after : Machine

/-- Where an element is read, the length of the array is an unsigned 64-bit number. -/
def Deed.Fits (d : Deed) : Prop :=
  ∀ id index, d.op = .read id index → (d.before.store.items id).size ≤ Number.maxUnsigned

/-- Lists follow the operations: each of them comes out with what it has to, and changes the lists as it has to. What is
made goes by an identity that was free and that no value had. -/
inductive Lists.Follow : Lists → List Deed → Lists → Prop
  | nil (l : Lists) : Follow l [] l
  | cons {l l' : Lists} {d : Deed} {rest : List Deed} (fresh : ArrayId) : l fresh = none →
      (∀ v, d.before.Has v → v ≠ .array fresh) → d.after.Gives (d.op.effect l fresh).1 →
      Follow (d.op.effect l fresh).2 rest l' → Follow l (d :: rest) l'

namespace Machine

/-- Moves up to a moment, none of them from a machine that was back at `base`, and the operations on arrays that they
carry out. -/
inductive Does (base : List Pending) : Machine → List Deed → Machine → Prop
  | refl (m : Machine) : Does base m [] m
  | deed {m m' m'' : Machine} {op : ArrayOp} {rest : List Deed} : ¬m.Back base → m.asks? = some op →
      m.step = (m', none) → Does base m' rest m'' → Does base m (⟨m, op, m'⟩ :: rest) m''
  | other {m m' m'' : Machine} {xs : List Shown} {deeds : List Deed} : ¬m.Back base → m.asks? = none → Move m xs m' →
      Does base m' deeds m'' → Does base m deeds m''
  /-- The stop flag is set or cleared, wherever the machine stands. -/
  | flag {m m' : Machine} {deeds : List Deed} (stopped : Bool) : ¬m.Back base →
      Does base { m with stopped := stopped } deeds m' → Does base m deeds m'

section Runs

variable {base : List Pending} {m m' : Machine}

/-- **All that happens to a machine is told by operations on arrays and moves that carry none out.** -/
theorem Carried.does {xs : List Shown} (hc : Carried base m xs m') (hm : m.Rooted) : ∃ deeds, Does base m deeds m' := by
  induction hc with
  | refl m => exact ⟨[], .refl m⟩
  | @move m m' m'' xs ys hb hmove _ ih =>
    obtain ⟨deeds, hd⟩ := ih (hm.move hmove)
    cases hop : m.asks? with
    | none => exact ⟨deeds, .other hb hop hmove hd⟩
    | some op =>
      have hevent := event_step hm hop
      cases hmove with
      | step hs => exact ⟨⟨m, op, m'⟩ :: deeds, .deed hb hop hs hd⟩
      | event v hs =>
        rw [hs] at hevent
        cases hevent
      | answer r hf =>
        unfold asks? at hop
        rw [hf] at hop
        cases hop
      | flag stopped => exact ⟨deeds, .flag stopped hb hd⟩

/-- **The lists of the store follow the operations.** -/
theorem Does.follow {deeds : List Deed} (hd : Does base m deeds m') (hm : m.Rooted) (hfits : ∀ d ∈ deeds, d.Fits) :
    m.store.lists.Follow deeds m'.store.lists := by
  induction hd with
  | refl m => exact .nil _
  | @deed m m' m'' op rest hb hop hs _ ih =>
    obtain ⟨hfit, hfits⟩ := List.forall_mem_cons.1 hfits
    obtain ⟨hgives, hlists⟩ := effect_step hm hop hfit
    rw [hs] at hgives hlists
    have hfollow := ih (hm.move (.step hs)) hfits
    rw [hlists] at hfollow
    exact .cons m.store.arrays.size (lists_size m.store) (fun v hv => hm.ne_array hv) hgives hfollow
  | @other m m' m'' xs deeds hb hop hmove _ ih =>
    have hfollow := ih (hm.move hmove) hfits
    have hlists : m'.store.lists = m.store.lists := by
      unfold Store.lists
      rw [arrays_move hop hmove]
    rwa [hlists] at hfollow
  | @flag m m' deeds stopped hb _ ih => exact ih (hm.move (.flag m stopped)) hfits

end Runs

end Machine

open Machine Session in
/-- **Arrays are lists that go by an identity**, however they are come by. Whatever task a session is set with values of
its own, and at every moment of it: the arrays that there are then are the lists that there were in the beginning, after
the operations that were carried out, one by one in their order. A list that was made has an identity that no value had
before, a list is changed by the operations on its identity only, and each operation came to what its lists say: a value
or a failure, which changes none of them. -/
theorem arrays_are_lists (registry : Registry) (config : Config) (console : Console) (s : Session)
    (hs : Session.Owned registry config console s) (t : Task) (ht : t.Owned s.machine.store) (shown : List Shown)
    (m : Machine) (hc : Carried [] (s.machine.undertake t) shown m) :
    (∃ deeds, Does [] (s.machine.undertake t) deeds m) ∧
      ∀ deeds, Does [] (s.machine.undertake t) deeds m → (∀ d ∈ deeds, d.Fits) →
        s.machine.store.lists.Follow deeds m.store.lists := by
  have hrooted := hs.rooted.undertake ht
  refine ⟨hc.does hrooted, fun deeds hd hfits => ?_⟩
  have hstore : (s.machine.undertake t).store = s.machine.store := by
    cases t <;> rfl
  have hfollow := hd.follow hrooted hfits
  rwa [hstore] at hfollow

/-- A session with an array without elements. -/
def oneEmpty : Session := ((Session.new .empty .default (.script (.ofInputs []))).newArray []).2

/-- The array is to be put at the end of an array, which is itself. -/
def pushIntoItself : Task :=
  .call (.native ⟨"arrayPush", .fixed 2, .arrayPush⟩) [.array 0, .array 0] ⟨0, 0, 1⟩

open Machine Session in
/-- Then the array lies in itself. -/
theorem arrays_are_lists_insideItself :
    ∃ m, Does [] (oneEmpty.machine.undertake pushIntoItself)
        [⟨oneEmpty.machine.undertake pushIntoItself, .push (.array 0) (.array 0), m⟩] m ∧
      oneEmpty.machine.store.lists.Follow
        [⟨oneEmpty.machine.undertake pushIntoItself, .push (.array 0) (.array 0), m⟩] m.store.lists ∧
      m.focus = .give (.array 0) ∧ m.store.lists 0 = some [.array 0] := by
  let start := oneEmpty.machine.undertake pushIntoItself
  have hs : Session.Owned .empty .default (.script (.ofInputs [])) oneEmpty :=
    .step (.new _) (.array _ (List.forall_mem_nil _))
  have ht : pushIntoItself.Owned oneEmpty.machine.store := by
    have harray : (Value.array 0).Lies oneEmpty.machine.store.Exists := lies_array Nat.one_pos
    intro v hv
    rcases List.mem_cons.1 hv with rfl | hv
    · exact Value.Plain.lies (v := .native ⟨"arrayPush", .fixed 2, .arrayPush⟩) rfl _
    · rw [List.eq_of_mem_replicate (n := 2) hv]
      exact harray
  have hb : ¬start.Back [] := fun hb => by cases hb.2
  have hdoes : Does [] start [⟨start, .push (.array 0) (.array 0), start.step.1⟩] start.step.1 :=
    .deed hb rfl rfl (.refl _)
  obtain ⟨-, hfollow⟩ := arrays_are_lists _ _ _ oneEmpty hs pushIntoItself ht [] start.step.1 (.move hb (.step rfl) (.refl _))
  refine ⟨start.step.1, hdoes, hfollow _ hdoes ?_, rfl, rfl⟩
  intro d hd
  rw [List.mem_singleton.1 hd]
  intro id index hread
  cases hread

end StepScript
