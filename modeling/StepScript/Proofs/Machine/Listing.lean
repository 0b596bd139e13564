import StepScript.Proofs.Machine.Names
import StepScript.Proofs.Machine.Stock

/-!
# What the listing of variables leaves out

The listing of a frame leaves out the registered names that were left alone. It tells them by their names: a builtin by
the name that it is shown as, a constant by an equal number.

* A registry that was put together step by step has every builtin under the name that it is shown as
  (`Registry.Built.named`), and the machine makes no builtins (`Coded.step`). So a builtin with the right name is the
  registered one (`isPristine_iff`).
* The listing goes by no more than that, in whatever frame. So it leaves out a parameter, too, that has a registered
  name and was given the registered value (`exists_insideCall` is such a moment).
-/

namespace StepScript

/-! ## Registries -/

/-- The registries that steps of registration put together. -/
inductive Registry.Built : Registry → Prop
  | none : Built .none
  | native {r : Registry} (b : Builtin) (arity : Arity) (x : String) : Built r → Built (r.native b arity x)
  | aliases {r : Registry} (b : Builtin) (arity : Arity) (names : List String) :
      Built r → Built (r.aliases b arity names)
  | constant {r : Registry} (x : String) (c : Float) : Built r → Built (r.constant x c)
  | extend {r other : Registry} : Built r → Built other → Built (r.extend other)

/-- Every builtin is registered under the name that it is shown as. -/
def Registry.Named (r : Registry) : Prop := ∀ x f, r.find? x = some (.native f) → f.name = x

namespace Registry

variable {r : Registry}

theorem Named.native (h : r.Named) (b : Builtin) (arity : Arity) (x : String) : (r.native b arity x).Named := by
  intro y f hf
  rw [Registry.native, Bindings.find?_put] at hf
  split at hf
  · rename_i hy
    cases hf
    exact hy.symm
  · exact h y f hf

theorem Named.aliases (h : r.Named) (b : Builtin) (arity : Arity) (names : List String) :
    (r.aliases b arity names).Named := by
  intro y f hf
  rw [find?_aliases] at hf
  split at hf
  · cases hf
    rfl
  · exact h y f hf

/-- **A registry that was put together step by step has its builtins under their names.** -/
theorem Built.named (h : r.Built) : r.Named := by
  induction h with
  | none =>
    intro x f hf
    cases hf
  | native b arity x _ ih => exact ih.native b arity x
  | aliases b arity names _ ih => exact ih.aliases b arity names
  | constant x c _ ih =>
    intro y f hf
    rw [Registry.constant, Bindings.find?_put] at hf
    split at hf
    · cases hf
    · exact ih y f hf
  | extend _ _ ih ihother =>
    intro x f hf
    rw [Bindings.find?_extend, Option.or_eq_some_iff] at hf
    rcases hf with hf | ⟨-, hf⟩
    · exact ihother x f hf
    · exact ih x f hf

end Registry

/-- A value is the one that was registered: the very builtin, or an equal number. -/
inductive Registration.Keeps : Registration → Value → Prop
  | native (f : Native) : Keeps (.native f) (.native f)
  | constant {c d : Float} : (d == c) = true → Keeps (.constant c) (.number d)

/-- What is asked of a builtin: it is registered under its name. -/
def Demand.registered (r : Registry) : Demand := ⟨fun _ => True, fun f => r.find? f.name = some (.native f)⟩

theorem goes_registered (r : Registry) : Goes (.registered r) fun _ => True :=
  ⟨fun _ _ _ => trivial, fun _ => trivial, fun _ _ _ => trivial⟩

/-! ## The entries of the listing -/

namespace Machine

variable {m : Machine} {registry : Registry} {x : String} {v : Value}

/-- A builtin with the name of a registered one is the registered one, if it is registered at all. -/
theorem isPristine_iff (hr : registry.Named) (hm : m.settings.registry = registry)
    (hv : v.Sound (.registered registry)) : m.isPristine (x, v) = true ↔ ∃ r, registry.find? x = some r ∧ r.Keeps v := by
  unfold isPristine
  rw [hm]
  cases hx : registry.find? x with
  | none => simp
  | some r =>
    constructor
    · intro h
      refine ⟨r, rfl, ?_⟩
      cases r with
      | native f =>
        cases v with
        | native g =>
          have hname : g.name = x := by simpa [Registration.isPristine, hr x f hx] using h
          have hg : registry.find? g.name = some (.native g) := hv
          rw [hname, hx] at hg
          cases hg
          exact .native _
        | _ => cases h
      | constant c =>
        cases v with
        | number d => exact .constant h
        | _ => cases h
    · rintro ⟨r', hr', hk⟩
      cases hr'
      cases hk with
      | native f => simp [Registration.isPristine]
      | constant h => exact h

/-- **The listing is in order**, and no name comes twice. -/
theorem pairwise_bindings (m : Machine) : m.bindings.Pairwise fun d e => d.1 < e.1 :=
  (Bindings.pairwise_sorted _).filter _

theorem mem_bindings_iff (m : Machine) (x : String) (v : Value) :
    (x, v) ∈ m.bindings ↔ (m.store.scopes.slots m.here).find? x = some v ∧ ¬m.isPristine (x, v) = true := by
  rw [bindings, List.mem_filter, Bindings.mem_sorted_iff]
  simp

/-- At rest and before anything was run, the listing has the constants that are not equal to themselves. -/
theorem mem_bindings_initial_iff (settings : Settings) (random : Random) (x : String) (v : Value) :
    (x, v) ∈ (Machine.initial settings random).bindings ↔
      ∃ c, settings.registry.find? x = some (.constant c) ∧ v = .number c ∧ ¬(c == c) = true := by
  have hfind : ((Machine.initial settings random).store.scopes.slots Store.globals).find? x =
      (settings.registry.find? x).map Registration.value :=
    (find?_installed settings.registry Store.globals x).trans (if_pos rfl)
  rw [mem_bindings_iff, show (Machine.initial settings random).here = Store.globals from rfl, hfind]
  cases hr : settings.registry.find? x with
  | none => simp
  | some r =>
    have hpristine : (Machine.initial settings random).isPristine (x, v) = r.isPristine v := by
      simp only [isPristine, initial, hr]
    rw [hpristine]
    cases r with
    | native f =>
      simp only [Option.map_some, Registration.value, Option.some.injEq, reduceCtorEq, false_and, exists_false,
        iff_false, not_and, Decidable.not_not]
      rintro rfl
      simp [Registration.isPristine]
    | constant c =>
      simp only [Option.map_some, Registration.value, Option.some.injEq, Registration.constant.injEq]
      constructor
      · rintro ⟨rfl, h⟩
        exact ⟨c, rfl, rfl, h⟩
      · rintro ⟨c', rfl, rfl, h⟩
        exact ⟨rfl, h⟩

end Machine

/-! ## Sessions that run programs -/

namespace Session

open Machine

/-- The sessions that programs lead to from a new one, under any hooks and however they end; between two of them the
stop flag may be set or cleared. -/
inductive Programmed (registry : Registry) (config : Config) (console : Console) : Session → Prop
  | new (entropy : Random) : Programmed registry config console (Session.new registry config console entropy)
  | run {η : Type} (h : Hook η) {s s' : Session} {state state' : η} {fuel : Nat} {source : String}
      {result : Except Diagnostic Value} : Programmed registry config console s →
      s.executeWith h state fuel source = some (result, state', s') → Programmed registry config console s'
  | flag {s : Session} (stopped : Bool) : Programmed registry config console s →
      Programmed registry config console (s.setStopped stopped)

section Programmed

variable {registry : Registry} {config : Config} {console : Console} {s : Session}

/-- **Programs make no builtins**: all that are in hand are registered under their names. And the registry stays. -/
theorem Programmed.coded (hr : registry.Named) (h : Programmed registry config console s) :
    s.machine.settings.registry = registry ∧ Coded (.registered registry) (fun _ => True) [] s.machine := by
  induction h with
  | new =>
    refine ⟨rfl, ⟨sound_install _ fun x f hf => ?_, trivial, [], rfl, by simp⟩, fits_nil⟩
    show registry.find? f.name = some (.native f)
    rw [hr x f hf]
    exact hf
  | @run η h s s' state state' fuel source result _ hrun ih =>
    cases hcompile : compile source with
    | error d =>
      rw [executeWith_error hcompile] at hrun
      cases hrun
      exact ih
    | ok program =>
      rw [executeWith_ok hcompile] at hrun
      obtain ⟨-, shown, hc, -⟩ := carried_of_drive hrun
      refine ⟨by rw [hc.settings]; exact ih.1, ?_⟩
      exact Coded.carried (goes_registered registry) hc (ih.2.begin fun _ _ => trivial)
  | flag stopped _ ih => exact ⟨ih.1, ih.2.move (goes_registered registry) (.flag _ stopped)⟩

end Programmed

end Session

open Machine in
/-- **The listing leaves out what was registered and is still the same, and nothing else.** For every registry that was
put together step by step and at every moment of a session that runs programs, the listing of the current frame has its
entries in the order of their names: all names that the frame binds, but for those that are registered and stand for the
registered value, which is the very builtin or an equal number. Before anything was run, it has nothing but the
constants that are not equal to themselves. -/
theorem listing_leaves_out_registered (registry : Registry) (hr : registry.Built) (config : Config) (console : Console)
    (s : Session) (hs : Session.Programmed registry config console s) (m : Machine)
    (hm : m = s.machine ∨ ∃ p shown, Carried [] (s.machine.begin p) shown m) :
    (m.bindings.Pairwise fun d e => d.1 < e.1) ∧
    (∀ x v, (x, v) ∈ m.bindings ↔ (m.store.scopes.slots m.here).find? x = some v ∧
      ¬∃ r, registry.find? x = some r ∧ r.Keeps v) ∧
    ∀ entropy x v, (x, v) ∈ (Session.new registry config console entropy).machine.bindings ↔
      ∃ c, registry.find? x = some (.constant c) ∧ v = .number c ∧ ¬(c == c) = true := by
  obtain ⟨hregistry, hcoded⟩ := hs.coded hr.named
  have hin : m.settings.registry = registry ∧ Coded (.registered registry) (fun _ => True) [] m := by
    rcases hm with rfl | ⟨p, shown, hc⟩
    · exact ⟨hregistry, hcoded⟩
    · refine ⟨by rw [hc.settings]; exact hregistry, ?_⟩
      exact Coded.carried (goes_registered registry) hc (hcoded.begin fun _ _ => trivial)
  refine ⟨m.pairwise_bindings, fun x v => ?_, fun _ => mem_bindings_initial_iff _ _⟩
  rw [mem_bindings_iff]
  refine and_congr_right fun hx => not_congr ?_
  exact isPristine_iff hr.named hin.1 (hin.2.store.scopes _ x v hx)

/-- A registry with one builtin. -/
def absOnly : Registry := Registry.none.native .abs (.fixed 1) "abs"

/-- A function with a parameter that has the name of the builtin, and a call that passes the builtin and null. -/
def passAbs : Program :=
  [.function "f" ["abs", "x"] [.expr (.literal .null ⟨0, 0, 2⟩) ⟨0, 0, 2⟩] ⟨0, 0, 1⟩,
    .expr (.call (.name "f" ⟨0, 0, 4⟩) [.name "abs" ⟨0, 0, 4⟩, .literal .null ⟨0, 0, 4⟩] ⟨0, 0, 4⟩) ⟨0, 0, 4⟩]

/-- The session that the call is made in. -/
def absSession : Session := Session.new absOnly .default (.script (.ofInputs []))

/-- The builtin. -/
def absNative : Native := ⟨"abs", .fixed 1, .abs⟩

/-- The builtin that a value is. -/
def Value.native? : Value → Option Native
  | .native f => some f
  | _ => none

open Machine in
/-- The moment inside the call, with both parameters bound in its frame. -/
theorem exists_insideCall : ∃ shown m, Carried [] (absSession.machine.begin passAbs) shown m ∧ m.here = 1 ∧
    (m.store.scopes.slots 1).find? "abs" = some (.native absNative) ∧
    (m.store.scopes.slots 1).find? "x" = some .null := by
  let pause : Hook Unit := ⟨fun _ _ line => ((), if line = 2 then .hold else .proceed), id⟩
  -- What is seen of the machine: the current frame, and the builtin and the kind of value that it binds.
  let seen (m : Machine) : FrameId × Option Native × Option Kind :=
    (m.here, ((m.store.scopes.slots 1).find? "abs").bind Value.native?,
      ((m.store.scopes.slots 1).find? "x").map Value.kind)
  have hrun : ((absSession.machine.begin passAbs).run pause.observer 40 ((), absSession.console)).map
      (fun r => seen r.2) = some (1, some absNative, some .null) := by decide +kernel
  obtain ⟨⟨s, m⟩, hr, hseen⟩ := Option.map_eq_some_iff.1 hrun
  obtain ⟨shown, hc, -⟩ := carried_of_run (Hook.notes _) hr
  simp only [seen, Prod.mk.injEq] at hseen
  obtain ⟨hhere, habs, hx⟩ := hseen
  obtain ⟨u, hu, hnative⟩ := Option.bind_eq_some_iff.1 habs
  obtain ⟨v, hv, hkind⟩ := Option.map_eq_some_iff.1 hx
  refine ⟨shown, m, hc, hhere, hu.trans ?_, hv.trans ?_⟩
  · cases u with
    | native f => rw [Option.some.inj hnative]
    | _ => cases hnative
  · cases v with
    | null => rfl
    | _ => cases hkind

/-- Inside the call the listing has the parameter that was given null, and not the one that was given the builtin. -/
theorem listing_leaves_out_registered_insideCall :
    ∃ m : Machine, m.here = 1 ∧ ("x", .null) ∈ m.bindings ∧ ("abs", .native absNative) ∉ m.bindings := by
  obtain ⟨shown, m, hc, hhere, habs, hx⟩ := exists_insideCall
  obtain ⟨-, hlist, -⟩ := listing_leaves_out_registered absOnly (.native .abs (.fixed 1) "abs" .none) .default _
    absSession (.new _) m (Or.inr ⟨passAbs, shown, hc⟩)
  rw [hhere] at hlist
  refine ⟨m, hhere, (hlist _ _).2 ⟨hx, ?_⟩, fun hmem => ((hlist _ _).1 hmem).2 ?_⟩
  · rintro ⟨r, -, hk⟩
    cases hk
  · exact ⟨.native absNative, rfl, .native _⟩

open Machine in
/-- **Not only the global frame is listed with names left out**: in the frame of a call, a parameter is left out. -/
theorem parameter_left_out :
    ¬∀ (registry : Registry) (config : Config) (console : Console) (s : Session) (m : Machine), registry.Built →
      Session.Programmed registry config console s → (∃ p shown, Carried [] (s.machine.begin p) shown m) →
      m.here ≠ Store.globals →
      ∀ x v, (m.store.scopes.slots m.here).find? x = some v → (x, v) ∈ m.bindings := by
  intro h
  obtain ⟨shown, m, hc, hhere, habs, -⟩ := exists_insideCall
  have hbuilt : absOnly.Built := .native .abs (.fixed 1) "abs" .none
  have hne : m.here ≠ Store.globals := by
    rw [hhere]
    decide
  rw [← hhere] at habs
  have hmem := h absOnly .default _ absSession m hbuilt (.new _) ⟨passAbs, shown, hc⟩ hne _ _ habs
  have hregistry : m.settings.registry = absOnly := by
    rw [hc.settings]
    rfl
  refine ((m.mem_bindings_iff _ _).1 hmem).2 ?_
  rw [isPristine, hregistry]
  decide

end StepScript
