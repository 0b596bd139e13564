import StepScript.Proofs.Machine.Slot

/-!
# A machine comes back to where it was

A task is anything a machine can be asked to do (`Task`): a statement, an expression, a block in a given frame, a call
or a program. It is undertaken on top of whatever is pending, and however it ends, with a value, at its end, with a
return or with a failure of any kind, the machine is then at the place where it began.

The hook comes back as well: it is taken out of its slot for every statement, and whatever it decides, it is in the slot
again when the run goes on (`Hooked.carried_of_drive`).

Sessions undertake one task after the other, so between two steps of a session the machine stands in the global frame,
inside no call and with nothing left to do (`Hooked.Reached.atHome`), under the hook that was installed last.
-/

namespace StepScript

/-- What a machine can be asked to do. -/
inductive Task where
  | statement (s : Stmt)
  | expression (e : Expr)
  /-- The statements of a block, in a frame of their own. -/
  | block (body : List Stmt) (frame : FrameId)
  | call (callee : Value) (args : List Value) (span : Span)
  | program (p : Program)

/-- What a task comes to. -/
def Task.product : Task → Product
  | statement _ | block _ _ => .statement
  | expression _ | call _ _ _ | program _ => .value

namespace Machine

/-- Sets out to do a task, on top of what is pending. -/
def undertake (m : Machine) : Task → Machine
  | .statement s => m.turn (.start s)
  | .expression e => m.turn (.eval e)
  | .block body frame => { m.push .done (.block m.here body) with here := frame }
  | .call callee args span => m.turn (.apply callee args span)
  | .program p => { m.push .done (.program 0 p) with latest := .null }

theorem undertake_program {m : Machine} (hm : m.pending = []) (p : Program) :
    m.undertake (.program p) = m.begin p := by
  simp [undertake, begin, push, hm]

theorem undertake_call {m : Machine} (hm : m.pending = []) (callee : Value) (args : List Value) (span : Span) :
    m.undertake (.call callee args span) = m.invoke callee args span := by
  simp [undertake, invoke, turn, ← hm]

/-- A task is work at the place where it was undertaken. -/
theorem working_undertake (m : Machine) (t : Task) : Working m.pending m.place t.product (m.undertake t) := by
  cases t with
  | statement s => exact working_turn (Or.inr rfl)
  | expression e => exact working_turn (Or.inr rfl)
  | block body frame => exact ⟨[.block m.here body], rfl, ⟨rfl, rfl⟩, rfl⟩
  | call callee args span => exact working_turn (Or.inr rfl)
  | program p => exact ⟨[.program 0 p], rfl, ⟨rfl, rfl⟩, rfl⟩

theorem Task.product_ne_line (t : Task) : t.product ≠ .line := by
  cases t <;> intro h <;> cases h

/-- However a task ends, the machine is at the place where it was undertaken. -/
theorem place_of_carried {m m' : Machine} {t : Task} {shown : List Shown}
    (hc : Carried m.pending (m.undertake t) shown m') (hb : m'.Back m.pending) : m'.place = m.place :=
  (hc.working (working_undertake m t) (Task.product_ne_line t)).home hb

theorem back_of_finished {m : Machine} {result : Except Diagnostic Value} (h : m.finished? = some result) :
    m.Back [] := by
  rw [← isFinished_iff, isFinished_eq, h]
  rfl

end Machine

namespace Session

open Machine

/-- The machine stands in the global frame, inside no call, with nothing left to do. -/
structure AtHome (s : Session) : Prop where
  here : s.machine.here = Store.globals
  calls : s.machine.calls = .none
  pending : s.machine.pending = []

/-- A step of a session: a text is run under a hook, a task is carried out under a hook, a global function is called,
a global name is bound, the stop flag is set or cleared, an array is made. -/
inductive Step : Session → Session → Prop
  | run {η : Type} (h : Hook η) {s s' : Session} {state state' : η} {fuel : Nat} {source : String}
      {result : Except Diagnostic Value} :
      s.executeWith h state fuel source = some (result, state', s') → Step s s'
  | task {η : Type} (h : Hook η) {s s' : Session} {state state' : η} {fuel : Nat} (t : Task)
      {result : Except Diagnostic Value} :
      s.drive h state fuel (s.machine.undertake t) = some (result, state', s') → Step s s'
  | call {s s' : Session} {fuel : Nat} {x : String} {args : List Value} {span : Span}
      {result : Except Diagnostic Value} : s.call fuel x args span = some (result, s') → Step s s'
  | define (s : Session) (x : String) (v : Value) : Step s (s.define x v)
  | flag (s : Session) (stopped : Bool) : Step s (s.setStopped stopped)
  | array (s : Session) (items : List Value) : Step s (s.newArray items).2

end Session

namespace Hooked

open Machine

/-- A step of a session that leaves its slot to the runs: a text is run, a task is carried out, a global function is
called, a global name is bound, the stop flag is set or cleared, an array is made. -/
inductive Step {η : Type} : Hooked η → Hooked η → Prop
  | run {s s' : Hooked η} {fuel : Nat} {source : String} {result : Except Diagnostic Value} :
      s.execute fuel source = some (result, s') → Step s s'
  | task {s s' : Hooked η} {fuel : Nat} (t : Task) {result : Except Diagnostic Value} :
      s.drive fuel (s.machine.undertake t) = some (result, s') → Step s s'
  | call {s s' : Hooked η} {fuel : Nat} {x : String} {args : List Value} {span : Span}
      {result : Except Diagnostic Value} : s.call fuel x args span = some (result, s') → Step s s'
  | define (s : Hooked η) (x : String) (v : Value) : Step s { s with toSession := s.toSession.define x v }
  | flag (s : Hooked η) (stopped : Bool) : Step s { s with toSession := s.toSession.setStopped stopped }
  | array (s : Hooked η) (items : List Value) : Step s { s with toSession := (s.toSession.newArray items).2 }

/-- The sessions that steps lead to from a new one, with hooks installed and taken out in between. -/
inductive Reached {η : Type} (registry : Registry) (config : Config) (console : Console) : Hooked η → Prop
  | new (entropy : Random) : Reached registry config console ⟨.new registry config console entropy, none⟩
  | install {s : Hooked η} (mounted : Mounted η) : Reached registry config console s →
      Reached registry config console (s.install mounted)
  | remove {s : Hooked η} : Reached registry config console s → Reached registry config console s.remove.2
  | step {s s' : Hooked η} : Reached registry config console s → Step s s' → Reached registry config console s'

/-- The hook that is installed. -/
def hook? {η : Type} (s : Hooked η) : Option (Hook η) := s.slot.map (·.hook)

section Drive

variable {η : Type} {s s' : Hooked η} {fuel : Nat} {m : Machine} {result : Except Diagnostic Value}

/-- What a driven machine did: moves up to an outcome with nothing left to do, all of them under the eyes of the hook in
the slot. -/
theorem carried_of_drive (hd : s.drive fuel m = some (result, s')) :
    s'.machine.Back [] ∧ ∃ shown, Carried [] m shown s'.machine ∧
      s'.slot = s.slot.map fun mounted => { mounted with state := shown.foldl mounted.hook.notice mounted.state } := by
  unfold drive at hd
  split at hd
  · cases hd
  · rename_i hr
    split at hd
    · cases hd
    · rename_i hf
      cases hd
      obtain ⟨shown, hc, hslot⟩ := carried_of_run Outside.notes hr
      exact ⟨back_of_finished hf, shown, hc, hslot.trans (Outside.foldl_notice _ shown)⟩

/-- A machine that is driven leaves the hook in its slot. -/
theorem hook?_of_drive (hd : s.drive fuel m = some (result, s')) : s'.hook? = s.hook? := by
  obtain ⟨-, shown, -, hslot⟩ := carried_of_drive hd
  rw [hook?, hslot, Option.map_map]
  rfl

/-- A machine that was driven through a task is at the place where it was. -/
theorem place_of_drive {t : Task} (hs : s.machine.pending = [])
    (hd : s.drive fuel (s.machine.undertake t) = some (result, s')) :
    s'.machine.pending = [] ∧ s'.machine.place = s.machine.place := by
  obtain ⟨hb, shown, hc, -⟩ := carried_of_drive hd
  rw [← hs] at hb hc
  exact ⟨hb.1.trans hs, place_of_carried hc hb⟩

theorem atHome_drive {t : Task} (hs : s.AtHome)
    (hd : s.drive fuel (s.machine.undertake t) = some (result, s')) : s'.AtHome := by
  obtain ⟨hp, hl⟩ := place_of_drive hs.pending hd
  have hh : s'.machine.here = s.machine.here := congrArg Prod.fst hl
  have hc : s'.machine.calls = s.machine.calls := congrArg Prod.snd hl
  exact ⟨hh.trans hs.here, hc.trans hs.calls, hp⟩

end Drive

section Steps

variable {η : Type} {s s' : Hooked η}

/-- A step from home leads home. -/
theorem Step.atHome (h : Step s s') (hs : s.AtHome) : s'.AtHome := by
  cases h with
  | run hr =>
    unfold Hooked.execute at hr
    split at hr
    · cases hr
      exact hs
    · rw [← undertake_program hs.pending] at hr
      exact atHome_drive hs hr
  | task t hr => exact atHome_drive hs hr
  | call hr =>
    unfold Hooked.call at hr
    split at hr
    · cases hr
      exact hs
    · rw [← undertake_call hs.pending] at hr
      exact atHome_drive hs hr
  | define | flag | array => exact ⟨hs.here, hs.calls, hs.pending⟩

/-- A step leaves the hook in its slot. -/
theorem Step.hook?_eq (h : Step s s') : s'.hook? = s.hook? := by
  cases h with
  | run hr =>
    unfold Hooked.execute at hr
    split at hr
    · cases hr
      rfl
    · exact hook?_of_drive hr
  | task t hr => exact hook?_of_drive hr
  | call hr =>
    unfold Hooked.call at hr
    split at hr
    · cases hr
      rfl
    · exact hook?_of_drive hr
  | define | flag | array => rfl

/-- Between two steps a session is at home. -/
theorem Reached.atHome {registry : Registry} {config : Config} {console : Console}
    (h : Reached registry config console s) : s.AtHome := by
  induction h with
  | new => exact ⟨rfl, rfl, rfl⟩
  | install _ _ ih => exact ⟨ih.here, ih.calls, ih.pending⟩
  | remove _ ih => exact ⟨ih.here, ih.calls, ih.pending⟩
  | step _ hs ih => exact hs.atHome ih

end Steps

end Hooked

namespace Session

open Machine

section Drive

variable {η : Type} {h : Hook η} {s s' : Session} {state state' : η} {fuel : Nat} {m : Machine}
  {result : Except Diagnostic Value}

/-- A run for which a hook was installed is one with the hook in the slot. -/
theorem hooked_of_release {r : Option (Except Diagnostic Value × Hooked η)}
    (hr : r.bind Hooked.release = some (result, state', s')) :
    ∃ h', r = some (result, ⟨s', some ⟨h', state'⟩⟩) := by
  obtain ⟨⟨result', s', slot⟩, rfl, hr⟩ := Option.bind_eq_some_iff.1 hr
  obtain ⟨⟨h', state'⟩, rfl, heq⟩ := Option.map_eq_some_iff.1 hr
  cases heq
  exact ⟨h', rfl⟩

/-- What a driven machine did: moves up to an outcome with nothing left to do, all of them under the eyes of the
hook. -/
theorem carried_of_drive (hd : s.drive h state fuel m = some (result, state', s')) :
    s'.machine.Back [] ∧ ∃ shown, Carried [] m shown s'.machine ∧ state' = shown.foldl h.notice state := by
  obtain ⟨h', hd⟩ := hooked_of_release hd
  obtain ⟨hb, shown, hc, hslot⟩ := Hooked.carried_of_drive hd
  cases hslot
  exact ⟨hb, shown, hc, rfl⟩

/-- What a driven machine came to is how it stands. -/
theorem finished_of_drive (hd : s.drive h state fuel m = some (result, state', s')) :
    s'.machine.finished? = some result := by
  rw [drive_eq] at hd
  obtain ⟨r, -, hr⟩ := Option.bind_eq_some_iff.1 hd
  obtain ⟨result, hf, heq⟩ := Option.map_eq_some_iff.1 hr
  cases heq
  exact hf

/-- A text that compiles is executed by a run of its program to an outcome. -/
theorem run_of_execute {source : String} {program : Program} (hc : compile source = .ok program)
    (he : s.execute fuel source = some (result, s')) :
    (s.machine.begin program).run Hook.idle.observer fuel ((), s.console) = some (((), s'.console), s'.machine) ∧
      s'.machine.finished? = some result := by
  rw [execute_ok hc, drive_eq] at he
  obtain ⟨_, hd, heq⟩ := Option.map_eq_some_iff.1 he
  obtain ⟨⟨⟨_, console⟩, m⟩, hr, hmap⟩ := Option.bind_eq_some_iff.1 hd
  obtain ⟨result, hf, rfl⟩ := Option.map_eq_some_iff.1 hmap
  cases heq
  exact ⟨hr, hf⟩

end Drive

/-- A new session is at home. -/
theorem atHome_new (registry : Registry) (config : Config) (console : Console) (entropy : Random) :
    (Session.new registry config console entropy).AtHome := ⟨rfl, rfl, rfl⟩

/-- A step of a session is one with a hook in the slot, or with none. -/
theorem Step.hooked {s s' : Session} (h : Step s s') :
    ∃ (η : Type) (slot slot' : Option (Mounted η)), Hooked.Step ⟨s, slot⟩ ⟨s', slot'⟩ := by
  cases h with
  | @run η h _ _ state state' fuel source result hr =>
    obtain ⟨h', hr⟩ := hooked_of_release hr
    exact ⟨η, _, _, .run hr⟩
  | @task η h _ _ state state' fuel t result hr =>
    obtain ⟨h', hr⟩ := hooked_of_release hr
    exact ⟨η, _, _, .task t hr⟩
  | call hr =>
    obtain ⟨⟨result, s', slot⟩, hc, heq⟩ := Option.map_eq_some_iff.1 hr
    cases heq
    exact ⟨Unit, _, _, .call hc⟩
  | define _ x v => exact ⟨Unit, none, none, .define ⟨s, none⟩ x v⟩
  | flag _ stopped => exact ⟨Unit, none, none, .flag ⟨s, none⟩ stopped⟩
  | array _ items => exact ⟨Unit, none, none, .array ⟨s, none⟩ items⟩

/-- A step from home leads home. -/
theorem AtHome.step {s s' : Session} (hs : s.AtHome) (h : Step s s') : s'.AtHome := by
  obtain ⟨η, slot, slot', hstep⟩ := h.hooked
  exact hstep.atHome hs

end Session

open Machine Hooked in
/-- **A machine comes back to where it was.** However a task ends, and whatever is decided, answered or flagged on the
way, the machine is in the frame and inside the calls that it was in before. Whoever watches it from the slot is in the
slot at every moment of the task, also right after it refused a statement, and was called for everything that the run
has shown. So every step of a session begins in the global frame and inside no call, whatever became of the steps before
it, and under the hook that was installed. -/
theorem comes_home :
    (∀ (m m' : Machine) (t : Task) (shown : List Shown), Carried m.pending (m.undertake t) shown m' →
      m'.Back m.pending → m'.here = m.here ∧ m'.calls = m.calls) ∧
    (∀ (η : Type) (o o' : Outside η) (m m' : Machine) (t : Task),
      Meanwhile Outside.observer m.pending o (m.undertake t) o' m' →
      o'.slot.map (·.hook) = o.slot.map (·.hook) ∧
        (m'.Back m.pending → m'.here = m.here ∧ m'.calls = m.calls)) ∧
    (∀ (η : Type) (s s' : Hooked η) (t : Task) (fuel : Nat) (result : Except Diagnostic Value),
      s.machine.pending = [] → s.drive fuel (s.machine.undertake t) = some (result, s') →
      s'.machine.here = s.machine.here ∧ s'.machine.calls = s.machine.calls ∧ s'.hook? = s.hook? ∧
        ∃ shown, Carried [] (s.machine.undertake t) shown s'.machine ∧ s'.slot =
          s.slot.map fun mounted => { mounted with state := shown.foldl mounted.hook.notice mounted.state }) ∧
    ∀ (η : Type) (registry : Registry) (config : Config) (console : Console) (s : Hooked η),
      Reached registry config console s →
      (s.machine.here = Store.globals ∧ s.machine.calls = .none ∧ s.machine.pending = []) ∧
        ∀ s', Step s s' → s'.hook? = s.hook? := by
  refine ⟨?_, ?_, ?_, ?_⟩
  · intro m m' t shown hc hb
    have hp := place_of_carried hc hb
    exact ⟨congrArg Prod.fst hp, congrArg Prod.snd hp⟩
  · intro η o o' m m' t hm
    obtain ⟨shown, hc, hslot⟩ := hm.carried Outside.notes
    refine ⟨?_, fun hb => ?_⟩
    · rw [hslot, Outside.foldl_notice, Option.map_map]
      rfl
    · have hp := place_of_carried hc hb
      exact ⟨congrArg Prod.fst hp, congrArg Prod.snd hp⟩
  · intro η s s' t fuel result hs hd
    obtain ⟨-, hp⟩ := place_of_drive hs hd
    obtain ⟨-, hshown⟩ := carried_of_drive hd
    exact ⟨congrArg Prod.fst hp, congrArg Prod.snd hp, hook?_of_drive hd, hshown⟩
  · intro η registry config console s hr
    have hh := hr.atHome
    exact ⟨⟨hh.here, hh.calls, hh.pending⟩, fun s' hs => hs.hook?_eq⟩

/-- A call of a function that fails inside a block of its body. -/
def failingCall : Task :=
  .call (.closure ⟨0, "f", [], [.block [.expr (.unary .negate (.literal .null ⟨0, 0, 1⟩) ⟨0, 0, 1⟩) ⟨0, 0, 1⟩] ⟨0, 0, 1⟩],
    Store.globals⟩) [] ⟨0, 0, 1⟩

open Hooked in
/-- A call in which the hook refuses a statement two frames deep leaves a session at home, and the hook in its slot. -/
theorem comes_home_failingCall :
    ∃ (s s' : Hooked ProbeLog) (d : Diagnostic),
      s.drive 30 (s.machine.undertake failingCall) = some (.error d, s') ∧
      s'.machine.here = s.machine.here ∧ s'.machine.calls = s.machine.calls ∧ s'.machine.here = Store.globals ∧
      s'.hook?.isSome = true := by
  let s₀ : Hooked ProbeLog := ⟨.new .empty .default (.script (.ofInputs [])), none⟩
  let s := s₀.install ⟨(⟨false, none, some 1, "refused"⟩ : Probe).hook, .empty⟩
  have hs : Reached .empty .default (.script (.ofInputs [])) s := .install _ (.new _)
  obtain ⟨d, s', hd⟩ : ∃ d s', s.drive 30 (s.machine.undertake failingCall) = some (.error d, s') := ⟨_, _, rfl⟩
  obtain ⟨hb, shown, hm, -⟩ := carried_of_drive hd
  have hc := (comes_home.1 s.machine s'.machine failingCall shown hm hb).2
  have hh := (comes_home.2.2.1 ProbeLog s s' failingCall 30 (.error d) rfl hd).1
  obtain ⟨⟨hg, -, -⟩, -⟩ := comes_home.2.2.2 _ _ _ _ s' (.step hs (.task failingCall hd))
  have hook := (comes_home.2.2.2 _ _ _ _ s hs).2 s' (.task failingCall hd)
  exact ⟨s, s', d, hd, hh, hc, hg, by rw [hook]; rfl⟩

end StepScript
