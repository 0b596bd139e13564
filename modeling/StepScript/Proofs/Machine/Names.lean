import StepScript.Proofs.Machine.Home
import StepScript.Proofs.Machine.Shift

/-!
# Names do not leak

A task binds names in the frames that are made for it and, of the frames that were there before, at most in one: the
current frame of a statement, an expression or a program. A block and a call have a frame of their own, so they bind
none outside it. Where the settings send undeclared names to the global frame, that frame may gain names as well.

* `Grows free m m'` says that no frame lost a name and that only `free` frames gained one. One step is such a growth
  (`grows_step`): it binds names in the current frame only.
* `Confined ok base m` says that the current frame, and every frame that the work above `base` comes back to and goes
  on in, is `ok`. A shift keeps it (`Shift.confined`), since a frame that is entered is a new one.
* So a run of a task binds names in new frames and in its own only (`Carried.grows`).
-/

namespace StepScript

namespace Scopes

/-- A frame binds a name itself. -/
def Binds (s : Scopes) (f : FrameId) (x : String) : Prop := (s.slots f).contains x = true

theorem binds_child {s : Scopes} {p f : FrameId} {x : String} : (s.child p).Binds f x ↔ s.Binds f x := by
  rw [Binds, slots_child]
  rfl

theorem binds_define {s : Scopes} {f g : FrameId} {x y : String} {v : Value} :
    (s.define f x v).Binds g y ↔ s.Binds g y ∨ (f = g ∧ g < s.size ∧ y = x) := by
  unfold Binds
  rw [slots_define]
  by_cases h : f = g ∧ g < s.size
  · rw [if_pos h, Bindings.contains_put]
    simp [h.1, h.2, or_comm]
  · rw [if_neg h]
    refine ⟨Or.inl, ?_⟩
    rintro (hb | ⟨hf, hg, -⟩)
    · exact hb
    · exact absurd ⟨hf, hg⟩ h

/-- Names that are bound one after the other in a frame change no other. -/
theorem binds_foldl_define (f : FrameId) (entries : List (String × Value)) (s : Scopes) :
    (entries.foldl (fun s e => s.define f e.1 e.2) s).size = s.size ∧
      ∀ g x, (s.Binds g x → (entries.foldl (fun s e => s.define f e.1 e.2) s).Binds g x) ∧
        (g ≠ f → (entries.foldl (fun s e => s.define f e.1 e.2) s).Binds g x → s.Binds g x) := by
  induction entries generalizing s with
  | nil => exact ⟨rfl, fun g x => ⟨id, fun _ => id⟩⟩
  | cons e rest ih =>
    obtain ⟨hsize, hb⟩ := ih (s.define f e.1 e.2)
    refine ⟨hsize.trans (size_define s f e.1 e.2), fun g x => ⟨fun h => ?_, fun hg h => ?_⟩⟩
    · exact (hb g x).1 (binds_define.2 (Or.inl h))
    · rcases binds_define.1 ((hb g x).2 hg h) with h | ⟨rfl, -, -⟩
      · exact h
      · exact absurd rfl hg

end Scopes

/-- A builtin binds no names. -/
theorem Builtin.scopes_run (b : Builtin) (args : List Value) (s : Store) : (b.run args s).2.scopes = s.scopes := by
  cases b with
  | random =>
    simp only [run, randomNumber]
    split
    · rfl
    · split <;> rfl
  | split => rfl
  | arrayNew =>
    simp only [run, makeArray]
    split
    · rfl
    · split <;> rfl
  | arrayPush =>
    simp only [run, push]
    split <;> rfl
  | arrayPop =>
    simp only [run, pop]
    split <;> rfl
  | _ => rfl

namespace Machine

/-! ## What one step binds -/

/-- No frame lost a name, and of the frames that were there only `free` ones gained any. -/
structure Grows (free : FrameId → Prop) (m m' : Machine) : Prop where
  settings : m'.settings = m.settings
  size : m.store.scopes.size ≤ m'.store.scopes.size
  kept : ∀ f x, m.store.scopes.Binds f x → m'.store.scopes.Binds f x
  gained : ∀ f x, f < m.store.scopes.size → m'.store.scopes.Binds f x → m.store.scopes.Binds f x ∨ free f

/-- The next step may bind names in the current frame. -/
def MayBind (m : Machine) : Prop :=
  m.focus.mayBind = true ∨ m.focus.isDue = true ∧ ∃ w rest, m.pending = w :: rest ∧ w.mayBind = true

section Grows

variable {free : FrameId → Prop} {m m' m'' : Machine}

/-- A step that leaves the frames alone. -/
theorem Grows.of_eq (hs : m'.store.scopes = m.store.scopes) (ht : m'.settings = m.settings) : Grows free m m' := by
  refine ⟨ht, Nat.le_of_eq (by rw [hs]), ?_, ?_⟩
  · intro f x h
    rw [hs]
    exact h
  · intro f x _ h
    rw [hs] at h
    exact Or.inl h

theorem Grows.trans (h : Grows free m m') (h' : Grows free m' m'') : Grows free m m'' := by
  refine ⟨h'.settings.trans h.settings, Nat.le_trans h.size h'.size, ?_, ?_⟩
  · intro f x hx
    exact h'.kept f x (h.kept f x hx)
  · intro f x hf hx
    rcases h'.gained f x (Nat.lt_of_lt_of_le hf h.size) hx with hx | hfree
    · exact h.gained f x hf hx
    · exact Or.inr hfree

theorem Grows.child {p : FrameId} (hs : m'.store.scopes = m.store.scopes.child p) (ht : m'.settings = m.settings) :
    Grows free m m' := by
  refine ⟨ht, ?_, ?_, ?_⟩
  · rw [hs, Scopes.size_child]
    omega
  · intro f x h
    rw [hs]
    exact Scopes.binds_child.2 h
  · intro f x _ h
    rw [hs] at h
    exact Or.inl (Scopes.binds_child.1 h)

/-- A name is bound in a free frame, in a new one, or where it was bound before. -/
theorem Grows.define {f : FrameId} {x : String} {v : Value} (hs : m'.store.scopes = m.store.scopes.define f x v)
    (ht : m'.settings = m.settings) (hf : free f ∨ m.store.scopes.Binds f x) : Grows free m m' := by
  refine ⟨ht, Nat.le_of_eq (by rw [hs, Scopes.size_define]), ?_, ?_⟩
  · intro g y h
    rw [hs]
    exact Scopes.binds_define.2 (Or.inl h)
  · intro g y _ h
    rw [hs] at h
    rcases Scopes.binds_define.1 h with h | ⟨rfl, -, rfl⟩
    · exact Or.inl h
    · exact hf.symm

/-- A variable is given a value where it is bound, or else in the current or the global frame. -/
theorem grows_assignVariable (x : String) (v : Value) (hs : m'.store = m.store) (ht : m'.settings = m.settings)
    (hh : free m'.here) (hg : m.settings.assignScope = .global → free Store.globals) :
    Grows free m (m'.assignVariable x v) := by
  refine Grows.define (congrArg (fun s : Store => s.scopes.define _ x v) hs) ht ?_
  cases hx : m'.store.scopes.home? m'.here x with
  | some f =>
    refine Or.inr ?_
    rw [← hs]
    exact Scopes.contains_of_home? hx
  | none =>
    refine Or.inl ?_
    dsimp only
    cases ha : m'.settings.assignScope with
    | current => exact hh
    | global => exact hg (by rw [← ht]; exact ha)

end Grows

section Step

variable {free : FrameId → Prop} {m : Machine}

theorem store_request (keep : Bool) (span : Span) (prompt : String) :
    (m.request keep span prompt).store = m.store ∧ (m.request keep span prompt).settings = m.settings := by
  unfold request
  split <;> exact ⟨rfl, rfl⟩

theorem grows_request {m₀ : Machine} (keep : Bool) (span : Span) (prompt : String)
    (hs : m.store.scopes = m₀.store.scopes) (ht : m.settings = m₀.settings) :
    Grows free m₀ (m.request keep span prompt) := by
  obtain ⟨h₁, h₂⟩ := store_request (m := m) keep span prompt
  exact .of_eq (by rw [h₁]; exact hs) (h₂.trans ht)

theorem grows_execStatement (s : Stmt) (hh : s.isBlock = false → free m.here) : Grows free m (m.execStatement s) := by
  cases s with
  | block body _ => exact .child (p := m.here) rfl rfl
  | function x params body _ => exact .define (f := m.here) rfl rfl (Or.inl (hh rfl))
  | input keyword prompt span =>
    cases prompt with
    | none => exact grows_request false span _ rfl rfl
    | some e => exact .of_eq rfl rfl
  | leave value _ => cases value <;> exact .of_eq rfl rfl
  | expr | print | assign | branch | loop => exact .of_eq rfl rfl

theorem grows_evalExpression (e : Expr) : Grows free m (m.evalExpression e) := by
  cases e with
  | name x span =>
    simp only [evalExpression]
    split <;> exact .of_eq rfl rfl
  | array items _ => cases items <;> exact .of_eq rfl rfl
  | literal | assign | binary | logical | unary | call | group | property | element | setProperty | setElement =>
    exact .of_eq rfl rfl

theorem grows_runBuiltin (b : Builtin) (args : List Value) (span : Span) :
    Grows free m (m.runBuiltin b args span).1 := by
  have hs : (b.run args m.store).2.scopes = m.store.scopes := b.scopes_run args m.store
  show Grows free m (takeAnswer { m with store := (b.run args m.store).2 } span (b.run args m.store).1).1
  cases (b.run args m.store).1 with
  | ask prompt => exact grows_request true span prompt hs rfl
  | value | write | writeLine | clear | fault => exact .of_eq hs rfl

theorem scopes_enterFunction (f : Closure) (args : List Value) (span : Span) :
    (m.enterFunction f args span).store.scopes =
      (f.params.zip args).foldl (fun s e => s.define m.store.scopes.size e.1 e.2) (m.store.scopes.child f.home) := rfl

/-- The parameters are bound in the new frame of the call. -/
theorem grows_enterFunction (f : Closure) (args : List Value) (span : Span) :
    Grows free m (m.enterFunction f args span) := by
  obtain ⟨hsize, hb⟩ := Scopes.binds_foldl_define m.store.scopes.size (f.params.zip args) (m.store.scopes.child f.home)
  rw [← scopes_enterFunction f args span] at hsize hb
  refine ⟨rfl, ?_, ?_, ?_⟩
  · rw [hsize, Scopes.size_child]
    omega
  · intro g x h
    exact (hb g x).1 (Scopes.binds_child.2 h)
  · intro g x hg h
    exact Or.inl (Scopes.binds_child.1 ((hb g x).2 (Nat.ne_of_lt hg) h))

theorem grows_applyValue (callee : Value) (args : List Value) (span : Span) :
    Grows free m (m.applyValue callee args span).1 := by
  unfold applyValue
  split
  · split
    · split
      · exact grows_runBuiltin _ args span
      · exact .of_eq rfl rfl
    · exact grows_runBuiltin _ args span
  · split
    · exact .of_eq rfl rfl
    · split
      · exact .of_eq rfl rfl
      · exact grows_enterFunction _ args span
  · exact .of_eq rfl rfl

theorem grows_takeValue {rest : List Pending} (v : Value) (w : Pending) (hh : w.mayBind = true → free m.here)
    (hg : m.settings.assignScope = .global → free Store.globals) :
    Grows free m (({ m with pending := rest } : Machine).takeValue v w).1 := by
  cases w with
  | bind x =>
    exact @grows_assignVariable _ _ (({ m with pending := rest } : Machine).turn .done) x v rfl rfl (hh rfl) hg
  | assign x =>
    exact @grows_assignVariable _ _ (({ m with pending := rest } : Machine).turn (.give v)) x v rfl rfl (hh rfl) hg
  | prompt span => exact grows_request false span _ rfl rfl
  | combine op left span =>
    simp only [takeValue]
    cases op.apply m.store left v <;> exact .of_eq rfl rfl
  | unary op span =>
    simp only [takeValue]
    cases op.apply m.store v <;> exact .of_eq rfl rfl
  | property x span =>
    simp only [takeValue]
    cases readProperty m.store v x <;> exact .of_eq rfl rfl
  | index object span =>
    simp only [takeValue]
    cases readElement m.store object v <;> exact .of_eq rfl rfl
  | discard | test | logical | setValue =>
    simp only [takeValue]
    split <;> exact .of_eq rfl rfl
  | choose yes no =>
    simp only [takeValue]
    split
    · exact .of_eq rfl rfl
    · split <;> exact .of_eq rfl rfl
  | write newline => cases newline <;> exact .of_eq rfl rfl
  | callee args span => cases args <;> exact .of_eq rfl rfl
  | argument callee before rest span => cases rest <;> exact .of_eq rfl rfl
  | item before rest => cases rest <;> exact .of_eq rfl rfl
  | setProperty | setObject => cases v <;> exact .of_eq rfl rfl
  | reply | block | again | returning | call | program | right | object | setIndex => exact .of_eq rfl rfl

/-- **A step binds names in the current frame only**, or in the global one if the settings say so. -/
theorem grows_step (hh : m.MayBind → free m.here) (hg : m.settings.assignScope = .global → free Store.globals) :
    Grows free m m.step.1 := by
  cases hm : m.focus with
  | start s =>
    simp only [step, hm, startStatement]
    split
    · exact .of_eq rfl rfl
    · split <;> exact .of_eq rfl rfl
  | exec s =>
    simp only [step, hm]
    exact grows_execStatement s fun hs => hh (Or.inl (by rw [hm, Focus.mayBind, hs]; rfl))
  | eval e => simp only [step, hm]; exact grows_evalExpression e
  | apply callee args span => simp only [step, hm]; exact grows_applyValue callee args span
  | await prompt => simp only [step, hm]; exact .of_eq rfl rfl
  | give v =>
    cases hp : m.pending with
    | nil => simp only [step, hm, hp]; exact .of_eq rfl rfl
    | cons w rest =>
      rw [step_give hm hp]
      exact grows_takeValue v w (fun hw => hh (Or.inr ⟨by rw [hm]; rfl, w, rest, hp, hw⟩)) hg
  | done =>
    cases hp : m.pending with
    | nil => simp only [step, hm, hp]; exact .of_eq rfl rfl
    | cons w rest =>
      rw [step_done hm hp]
      cases w with
      | block outer more => cases more <;> exact .of_eq rfl rfl
      | call outer more => cases more <;> exact .of_eq rfl rfl
      | program index more => cases more <;> exact .of_eq rfl rfl
      | _ => exact .of_eq rfl rfl
  | leave v =>
    cases hp : m.pending with
    | nil => simp only [step, hm, hp]; exact .of_eq rfl rfl
    | cons w rest => rw [step_leave hm hp]; cases w <;> exact .of_eq rfl rfl
  | fail d =>
    cases hp : m.pending with
    | nil => simp only [step, hm, hp]; exact .of_eq rfl rfl
    | cons w rest => rw [step_fail hm hp]; cases w <;> exact .of_eq rfl rfl

/-- A move binds no more than a step does. -/
theorem Move.grows {m' : Machine} {xs : List Shown} (hm : Move m xs m') (hh : m.MayBind → free m.here)
    (hg : m.settings.assignScope = .global → free Store.globals) : Grows free m m' := by
  cases hm with
  | step hs =>
    have := grows_step hh hg
    rwa [hs] at this
  | @event m₁ e v hs =>
    have := grows_step hh hg
    rw [hs] at this
    exact this.trans (.of_eq (congrArg Store.scopes (store_heed m₁ v)) (settings_heed m₁ v))
  | answer r _ =>
    unfold Machine.answer
    split
    · cases r with
      | line text => dsimp only; split <;> exact .of_eq rfl rfl
      | cancelled => dsimp only; split <;> exact .of_eq rfl rfl
    · exact .of_eq rfl rfl
  | flag stopped => exact .of_eq rfl rfl

/-- The settings stay as they are. -/
theorem Move.settings {m' : Machine} {xs : List Shown} (hm : Move m xs m') : m'.settings = m.settings := by
  have hg : Grows (fun _ => True) m m' := hm.grows (fun _ => trivial) fun _ => trivial
  exact hg.settings

theorem Carried.settings {base : List Pending} {m' : Machine} {xs : List Shown} (hc : Carried base m xs m') :
    m'.settings = m.settings := by
  induction hc with
  | refl => rfl
  | move _ hm _ ih => exact ih.trans hm.settings

end Step

/-! ## Where work goes on -/

/-- Every piece of work in a chain goes on in an `ok` frame, from the place inside the chain. -/
def Within (ok : FrameId → Prop) : List Pending → Place → Prop
  | [], _ => True
  | w :: rest, place => (w.mayBind = true → ok place.1) ∧ Within ok rest (w.exit place)

/-- The work above `base` goes on in `ok` frames, and so does the focus. -/
def Confined (ok : FrameId → Prop) (base : List Pending) (m : Machine) : Prop :=
  (m.focus.mayBind = true → ok m.here) ∧ ∃ inner, m.pending = inner ++ base ∧ Within ok inner m.place

section Confined

variable {ok : FrameId → Prop} {base : List Pending} {m m' : Machine}

theorem Within.append {ws inner : List Pending} {place : Place} (hu : ∀ w ∈ ws, w.isRow = false)
    (hk : ∀ w ∈ ws, w.mayBind = true → ok place.1) (h : Within ok inner place) : Within ok (ws ++ inner) place := by
  induction ws with
  | nil => exact h
  | cons w ws ih =>
    refine ⟨hk w (by simp), ?_⟩
    rw [Pending.exit_of_not_isScope (Pending.of_not_isRow (hu w (by simp))).1]
    exact ih (fun v hv => hu v (by simp [hv])) fun v hv => hk v (by simp [hv])

/-- Work that is begun in an `ok` frame, or that binds no names, stays confined. -/
theorem Begun.confined {b : Bool} {ws inner : List Pending} (h : Begun b m ws m') (hb : b = true → ok m.here)
    (hi : Within ok inner m.place) : (m'.focus.mayBind = true → ok m'.here) ∧ Within ok (ws ++ inner) m'.place := by
  have hh : m'.here = m.here := congrArg Prod.fst h.place
  cases b with
  | true =>
    refine ⟨fun _ => by rw [hh]; exact hb rfl, ?_⟩
    rw [h.place]
    exact hi.append h.rowless fun _ _ _ => hb rfl
  | false =>
    obtain ⟨hf, hw⟩ := h.idle rfl
    refine ⟨fun hm => absurd (hf.symm.trans hm) Bool.false_ne_true, ?_⟩
    rw [h.place]
    refine hi.append h.rowless fun w hmem hm => ?_
    exact absurd ((hw w hmem).symm.trans hm) Bool.false_ne_true

/-- **A shift goes on in `ok` frames**, if the next new frame is one. -/
theorem Shift.confined (hs : Shift m m') (ha : Above base m) (hn : ok m.store.scopes.size) (h : Confined ok base m) :
    Confined ok base m' := by
  obtain ⟨hf, inner, hi, hw⟩ := h
  have htop : ∀ {w rest}, m.focus.isDue = true → m.pending = w :: rest → ∃ more, rest = more ++ base ∧
      (w.mayBind = true → ok m.here) ∧ Within ok more (w.exit m.place) := by
    intro w rest hd hp
    obtain ⟨more, rfl, rfl⟩ := ha.top hi hd hp
    exact ⟨more, rfl, hw⟩
  cases hs with
  | @look ws hb =>
    obtain ⟨hf', hw'⟩ := hb.confined hf hw
    exact ⟨hf', ws ++ inner, by rw [hb.pending, hi, List.append_assoc], hw'⟩
  | @enter w _ hp hh hx _ _ hm =>
    refine ⟨fun h => absurd (hm.symm.trans h) Bool.false_ne_true, w :: inner, by rw [hp, hi, List.cons_append],
      fun _ => ?_, ?_⟩
    · show ok m'.here
      rw [hh]
      exact hn
    · rw [hx]
      exact hw
  | @hand w rest ws hd hp hu hb =>
    obtain ⟨more, rfl, hok, hw'⟩ := htop hd hp
    rw [Pending.exit_of_not_isScope hu] at hw'
    obtain ⟨hf', hw''⟩ := hb.confined hok hw'
    exact ⟨hf', ws ++ more, by rw [hb.pending, List.append_assoc], hw''⟩
  | @next w w' rest hd hp hp' hb _ _ hx hl =>
    obtain ⟨more, rfl, hok, hw'⟩ := htop hd hp
    have hh : ok m'.here := by
      rw [show m'.here = m.here from congrArg Prod.fst hl]
      exact hok hb
    refine ⟨fun _ => hh, w' :: more, by rw [hp', List.cons_append], fun _ => hh, ?_⟩
    rw [hx, hl]
    exact hw'
  | @leave w rest hd hp _ hp' hl ho =>
    obtain ⟨more, rfl, -, hw'⟩ := htop hd hp
    have hm := Focus.mayBind_of_isOutcome ho
    exact ⟨fun h => absurd (hm.symm.trans h) Bool.false_ne_true, more, hp', by rw [hl]; exact hw'⟩

/-- What may bind names does so in an `ok` frame. -/
theorem Confined.ok_here (h : Confined ok base m) (ha : Above base m) (hb : m.MayBind) : ok m.here := by
  obtain ⟨hf, inner, hi, hw⟩ := h
  rcases hb with hb | ⟨hd, w, rest, hp, hb⟩
  · exact hf hb
  · obtain ⟨more, rfl, rfl⟩ := ha.top hi hd hp
    exact hw.1 hb

/-- **A run binds names in free frames only**, if its work goes on in such frames and new frames are free. -/
theorem Carried.grows {free : FrameId → Prop} {home : Place} {p : Product} {xs : List Shown}
    (hc : Carried base m xs m') (hw : Working base home p m) (hp : p ≠ .line)
    (hn : ∀ f, m.store.scopes.size ≤ f → ok f) (hfree : ∀ f, ok f → free f)
    (hg : m.settings.assignScope = .global → free Store.globals) (h : Confined ok base m) : Grows free m m' := by
  induction hc with
  | refl => exact .of_eq rfl rfl
  | @move m m₁ _ _ _ hb hm _ ih =>
    have ha := hw.above hp hb
    have h₁ : Grows free m m₁ := hm.grows (fun hbind => hfree _ (h.ok_here ha hbind)) hg
    refine h₁.trans (ih (hm.working hw hp hb) (fun f hf => hn f (Nat.le_trans h₁.size hf)) ?_ ?_)
    · rw [h₁.settings]
      exact hg
    · exact (hw.shift hb hm).confined ha (hn _ (Nat.le_refl _)) h

/-- A run loses no name, whatever it is a run of. -/
theorem Carried.kept {xs : List Shown} (hc : Carried base m xs m') (f : FrameId) (x : String)
    (h : m.store.scopes.Binds f x) : m'.store.scopes.Binds f x := by
  induction hc with
  | refl => exact h
  | move _ hm _ ih =>
    have hg : Grows (fun _ => True) _ _ := hm.grows (fun _ => trivial) fun _ => trivial
    exact ih (hg.kept f x h)

end Confined

end Machine

/-! ## Tasks -/

/-- The frame, of those that are there, that a task may bind names in when it is undertaken in `here`. A block and a
call have a frame of their own. -/
def Task.scope (here : FrameId) : Task → Option FrameId
  | statement s => if s.isBlock then none else some here
  | expression _ | program _ => some here
  | block _ frame => some frame
  | call _ _ _ => none

namespace Machine

theorem confined_undertake {ok : FrameId → Prop} (m : Machine) (t : Task) (h : ∀ f, t.scope m.here = some f → ok f) :
    Confined ok m.pending (m.undertake t) := by
  cases t with
  | statement s =>
    refine ⟨fun hb => h m.here ?_, [], rfl, trivial⟩
    have hs : s.isBlock = false := by
      simpa [undertake, turn, Focus.mayBind] using hb
    simp [Task.scope, hs]
  | expression e => exact ⟨fun _ => h m.here rfl, [], rfl, trivial⟩
  | block body frame =>
    exact ⟨fun hb => absurd hb Bool.false_ne_true, [.block m.here body], rfl, fun _ => h frame rfl, trivial⟩
  | call callee args span => exact ⟨fun hb => absurd hb Bool.false_ne_true, [], rfl, trivial⟩
  | program p =>
    exact ⟨fun hb => absurd hb Bool.false_ne_true, [.program 0 p], rfl, fun _ => h m.here rfl, trivial⟩

/-- The frames that may gain names by a task that is undertaken by `m`. -/
def Gaining (m : Machine) (t : Task) (f : FrameId) : Prop :=
  t.scope m.here = some f ∨ (m.settings.assignScope = .global ∧ f = Store.globals)

/-- Of the frames that were there before a task, only its own gain names by it. -/
theorem gaining_of_carried {m m' : Machine} {t : Task} {shown : List Shown}
    (hc : Carried m.pending (m.undertake t) shown m') {f : FrameId} {x : String} (hf : f < m.store.scopes.size)
    (hx : m'.store.scopes.Binds f x) : m.store.scopes.Binds f x ∨ m.Gaining t f := by
  have hstore : (m.undertake t).store = m.store := by cases t <;> rfl
  have hsettings : (m.undertake t).settings = m.settings := by cases t <;> rfl
  have hconf : Confined (fun g => m.store.scopes.size ≤ g ∨ t.scope m.here = some g) m.pending (m.undertake t) :=
    confined_undertake m t fun g hg => Or.inr hg
  have hgrows : Grows (fun g => m.store.scopes.size ≤ g ∨ m.Gaining t g) (m.undertake t) m' := by
    refine hc.grows (working_undertake m t) (Task.product_ne_line t) ?_ ?_ ?_ hconf
    · intro g hg
      rw [hstore] at hg
      exact Or.inl hg
    · intro g hg
      exact hg.imp_right Or.inl
    · intro hglobal
      rw [hsettings] at hglobal
      exact Or.inr (Or.inr ⟨hglobal, rfl⟩)
  have hgain := hgrows.gained f x (by rw [hstore]; exact hf) hx
  rw [hstore] at hgain
  rcases hgain with h | h | h
  · exact Or.inl h
  · exact absurd hf (Nat.not_lt.2 h)
  · exact Or.inr h

end Machine

open Machine in
/-- **Names do not leak.** At every moment of a task, whatever is decided, answered or flagged on the way and however
the task ends: of the frames that were there before it, only one can have gained names, the current frame of a
statement, an expression or a program; none has by a block or by a call. Where undeclared names go to the global frame,
that frame can have gained some as well. The same holds of a task that is run to its end under a hook. And from no
moment of a run to a later one does any frame lose a name. -/
theorem names_do_not_leak :
    (∀ (m m' : Machine) (t : Task) (shown : List Shown), Carried m.pending (m.undertake t) shown m' →
      ∀ f x, f < m.store.scopes.size → m'.store.scopes.Binds f x →
        m.store.scopes.Binds f x ∨ t.scope m.here = some f ∨
          (m.settings.assignScope = .global ∧ f = Store.globals)) ∧
    (∀ (η : Type) (h : Hook η) (s s' : Session) (t : Task) (fuel : Nat) (state state' : η)
      (result : Except Diagnostic Value), s.machine.pending = [] →
      s.drive h state fuel (s.machine.undertake t) = some (result, state', s') →
      ∀ f x, f < s.machine.store.scopes.size → s'.machine.store.scopes.Binds f x →
        s.machine.store.scopes.Binds f x ∨ t.scope s.machine.here = some f ∨
          (s.machine.settings.assignScope = .global ∧ f = Store.globals)) ∧
    ∀ (base : List Pending) (m m' : Machine) (shown : List Shown), Carried base m shown m' →
      ∀ f x, m.store.scopes.Binds f x → m'.store.scopes.Binds f x := by
  refine ⟨?_, ?_, ?_⟩
  · intro m m' t shown hc f x hf hx
    exact gaining_of_carried hc hf hx
  · intro η h s s' t fuel state state' result hs hd f x hf hx
    obtain ⟨-, shown, hc, -⟩ := Session.carried_of_drive hd
    rw [← hs] at hc
    exact gaining_of_carried hc hf hx
  · intro base m m' shown hc f x hx
    exact hc.kept f x hx

/-- A block that binds a variable and a function and then fails. -/
def failingBlock : Task :=
  .statement (.block [.assign "x" (.literal .null ⟨0, 0, 1⟩) ⟨0, 0, 1⟩, .function "f" [] [] ⟨0, 0, 1⟩,
    .expr (.unary .negate (.literal .null ⟨0, 0, 1⟩) ⟨0, 0, 1⟩) ⟨0, 0, 1⟩] ⟨0, 0, 1⟩)

open Machine in
/-- A block that fails leaves none of its names in the global frame, and the name that was there stays. -/
theorem names_do_not_leak_failingBlock :
    ∃ (s s' : Session) (d : Diagnostic),
      s.drive .idle () 30 (s.machine.undertake failingBlock) = some (.error d, (), s') ∧
      ¬s'.machine.store.scopes.Binds Store.globals "x" ∧ ¬s'.machine.store.scopes.Binds Store.globals "f" ∧
      s'.machine.store.scopes.Binds Store.globals "y" := by
  let s := (Session.new .empty .default (.script (.ofInputs []))).define "y" .null
  obtain ⟨d, s', hd⟩ : ∃ d s', s.drive .idle () 30 (s.machine.undertake failingBlock) = some (.error d, (), s') :=
    ⟨_, _, rfl⟩
  have hnew : ∀ x, x ≠ "y" → ¬s'.machine.store.scopes.Binds Store.globals x := by
    intro x hx hb
    rcases names_do_not_leak.2.1 Unit .idle s s' failingBlock 30 () () (.error d) rfl hd Store.globals x
      (by decide) hb with h | h | h
    · rcases Scopes.binds_define.1 h with h | ⟨-, -, h⟩
      · cases h
      · exact hx h
    · cases h
    · cases h.1
  obtain ⟨hb, shown, hc, -⟩ := Session.carried_of_drive hd
  refine ⟨s, s', d, hd, hnew "x" (by decide), hnew "f" (by decide), ?_⟩
  exact names_do_not_leak.2.2 [] _ _ shown hc Store.globals "y" rfl

end StepScript
