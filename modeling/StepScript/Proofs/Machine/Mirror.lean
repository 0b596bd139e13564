import StepScript.Proofs.Machine.Folding
import StepScript.Proofs.Machine.Rooted
import StepScript.Proofs.Machine.Stopping

/-!
# Statements with blocks around them

A statement and the same statement with blocks around some of its parts are run side by side. The first machine, which
runs the blocks, has frames that the second lacks; as long as these bind nothing, they can be folded away.

* `Clad site base s' s`: the statement `s'` is `s` with blocks around some of its parts, each around a single statement.
  What is pending at the places of these blocks fits `site`.
* `Mirrors n site F b m' m`: the first machine is the second, with blocks to come back from and with frames that `F`
  folds away.
* Machines that mirror each other make the same step and show the same (`Mirrors.step`), unless the first has a block to
  enter or to come back from (`Ready`). A variable must not be made in a frame that is folded away, which is a condition
  on the second machine alone (`Spares`).
-/

namespace StepScript

/-! ## Functions that are declared in the current frame -/

/-- Whether a statement declares a function in the frame that it is run in. -/
def Stmt.declares : Stmt → Bool
  | .function _ _ _ _ => true
  | .branch _ yes none _ => yes.declares
  | .branch _ yes (some no) _ => yes.declares || no.declares
  | .loop _ body _ => body.declares
  | _ => false

def Focus.declares : Focus → Bool
  | .start s | .exec s => s.declares
  | _ => false

def Pending.declares : Pending → Bool
  | .choose yes none => yes.declares
  | .choose yes (some no) => yes.declares || no.declares
  | .test _ body | .again _ body => body.declares
  | _ => false

/-! ## Statements with blocks around them -/

mutual

/-- The first statement is the second with blocks around some of its parts, each around a single statement. The second
is to be run on top of `base`, and wherever it lacks a block, `site` holds of what is pending there. -/
inductive Clad (site : List Pending → Prop) : List Pending → Stmt → Stmt → Prop
  | akin {base : List Pending} {s' s : Stmt} : Akin site base s' s → Clad site base s' s
  | wrap {base : List Pending} {s' s : Stmt} : site base → s.declares = false → Akin site base s' s →
      Clad site base (.block [s'] s.span) s

/-- So it is with parts of the statements, but not with these themselves. -/
inductive Akin (site : List Pending → Prop) : List Pending → Stmt → Stmt → Prop
  | same {base : List Pending} (s : Stmt) : Akin site base s s
  | loop {base : List Pending} {c : Expr} {body' body : Stmt} (span : Span) :
      Clad site (.again c body :: base) body' body → Akin site base (.loop c body' span) (.loop c body span)
  | block {base : List Pending} {ss' ss : List Stmt} (span : Span) : Rows site base ss' ss →
      Akin site base (.block ss' span) (.block ss span)

/-- So it is with the last of some statements, in a block on top of `base`. -/
inductive Rows (site : List Pending → Prop) : List Pending → List Stmt → List Stmt → Prop
  | same {base : List Pending} (ss : List Stmt) : Rows site base ss ss
  | last {base : List Pending} {s' s : Stmt} : (∀ outer, Clad site (.block outer [] :: base) s' s) →
      Rows site base [s'] [s]
  | cons {base : List Pending} {ss' ss : List Stmt} (s : Stmt) : Rows site base ss' ss →
      Rows site base (s :: ss') (s :: ss)

end

section Clad

variable {site : List Pending → Prop} {base : List Pending} {s' s : Stmt}

theorem Akin.span_eq (h : Akin site base s' s) : s'.span = s.span := by
  cases h <;> rfl

theorem Akin.isBlock_eq (h : Akin site base s' s) : s'.isBlock = s.isBlock := by
  cases h <;> rfl

theorem Clad.span_eq (h : Clad site base s' s) : s'.span = s.span := by
  cases h with
  | akin h => exact h.span_eq
  | wrap => rfl

end Clad

/-! ## Machines that mirror each other -/

section Like

variable (site : List Pending → Prop) (F : Fold)

/-- What two machines are about to do, on top of `base`: the same, with the frames of functions renamed and with blocks
around parts of the first. -/
def Focus.Like (base : List Pending) : Focus → Focus → Prop
  | .start s', f => ∃ s, f = .start s ∧ Clad site base s' s
  | .exec s', f => ∃ s, f = .exec s ∧ Akin site base s' s
  | g, f => f = g.rename F.place

/-- What two machines have to do after that, on top of `base`. -/
def Pending.Like (base : List Pending) : Pending → Pending → Prop
  | .test c body', w => ∃ body, w = .test c body ∧ Clad site (.again c body :: base) body' body
  | .again c body', w => ∃ body, w = .again c body ∧ Clad site (.again c body :: base) body' body
  | w', w => w = w'.rename F.place

/-- The pending work of two machines, the first of which stands in a frame: the same, but that the first has frames to
come back from that are folded away. The flag says that none of these is the innermost. -/
inductive Aligned : Bool → FrameId → List Pending → List Pending → Prop
  | nil {f : FrameId} : ¬F.gone f → Aligned true f [] []
  | work {b : Bool} {f : FrameId} {w' w : Pending} {rest' rest : List Pending} : w'.isRow = false →
      w'.Like site F rest w → (F.gone f → w.declares = false) → Aligned b f rest' rest →
      Aligned true f (w' :: rest') (w :: rest)
  | block {b : Bool} {f outer : FrameId} {ss' ss : List Stmt} {rest' rest : List Pending} : ¬F.gone f →
      Rows site rest ss' ss → Aligned b outer rest' rest →
      Aligned true f (.block outer ss' :: rest') (.block (F.place outer) ss :: rest)
  | call {b : Bool} {f outer : FrameId} {ss : List Stmt} {rest' rest : List Pending} : ¬F.gone f →
      Aligned b outer rest' rest → Aligned true f (.call outer ss :: rest') (.call (F.place outer) ss :: rest)
  | fold {b : Bool} {f outer : FrameId} {rest' rest : List Pending} : F.gone f → F.place f = F.place outer → site rest →
      Aligned b outer rest' rest → Aligned false f (.block outer [] :: rest') rest

end Like

section Aligned

variable {site : List Pending → Prop} {F : Fold} {rest' : List Pending}

/-- The statements of two rows are as many, and each is run on top of the rest of its row. -/
theorem Rows.uncons {base : List Pending} {s' : Stmt} {ss' ss : List Stmt} (h : Rows site base (s' :: ss') ss) :
    ∃ s tail, ss = s :: tail ∧ Rows site base ss' tail ∧ ∀ outer, Clad site (.block outer tail :: base) s' s := by
  cases h with
  | same => exact ⟨s', ss', rfl, .same ss', fun _ => .akin (.same s')⟩
  | last hs => exact ⟨_, [], rfl, .same [], hs⟩
  | cons _ hr => exact ⟨s', _, rfl, hr, fun _ => .akin (.same s')⟩

theorem Rows.eq_nil {base : List Pending} {ss : List Stmt} (h : Rows site base [] ss) : ss = [] := by
  cases h
  rfl

/-- What is innermost, if it is not to be folded away. -/
inductive Top (site : List Pending → Prop) (F : Fold) (f : FrameId) :
    Pending → List Pending → Pending → List Pending → Prop
  | work {b : Bool} {w' w : Pending} {rest' rest : List Pending} : w'.isRow = false → w'.Like site F rest w →
      (F.gone f → w.declares = false) → Aligned site F b f rest' rest → Top site F f w' rest' w rest
  | block {b : Bool} {outer : FrameId} {ss' ss : List Stmt} {rest' rest : List Pending} : ¬F.gone f →
      Rows site rest ss' ss → Aligned site F b outer rest' rest →
      Top site F f (.block outer ss') rest' (.block (F.place outer) ss) rest
  | call {b : Bool} {outer : FrameId} {ss : List Stmt} {rest' rest : List Pending} : ¬F.gone f →
      Aligned site F b outer rest' rest → Top site F f (.call outer ss) rest' (.call (F.place outer) ss) rest

theorem Aligned.top {f : FrameId} {w' : Pending} {p : List Pending} (h : Aligned site F true f (w' :: rest') p) :
    ∃ w rest, p = w :: rest ∧ Top site F f w' rest' w rest := by
  cases h with
  | work hr hw hd ha => exact ⟨_, _, rfl, .work hr hw hd ha⟩
  | block hg hr ha => exact ⟨_, _, rfl, .block hg hr ha⟩
  | call hg ha => exact ⟨_, _, rfl, .call hg ha⟩

theorem Aligned.eq_nil {f : FrameId} {p : List Pending} (h : Aligned site F true f [] p) : p = [] := by
  cases h
  rfl

end Aligned

namespace Machine

/-- Two machines stand beside each other: their frames, their pending work and all else but what they are about to do
and the latest value. -/
structure Beside (n : Nat) (site : List Pending → Prop) (F : Fold) (b : Bool) (m' m : Machine) : Prop where
  pending : Aligned site F b m'.here m'.pending m.pending
  here : m.here = F.place m'.here
  calls : m.calls = m'.calls
  store : m'.store.Folds n F m.store
  stopped : m.stopped = m'.stopped
  cursor : m.cursor = m'.cursor
  settings : m.settings = m'.settings

/-- They are about to do the same, too. In a frame that is folded away no function is declared. -/
structure Mirrors (n : Nat) (site : List Pending → Prop) (F : Fold) (b : Bool) (m' m : Machine) : Prop
    extends Beside n site F b m' m where
  focus : m'.focus.Like site F m.pending m.focus
  undeclared : F.gone m'.here → m.focus.declares = false

/-- Two steps come to the same and show the same. -/
structure Matches (n : Nat) (site : List Pending → Prop) (F : Fold) (r' r : Machine × Option Event) : Prop where
  machine : ∃ b, Mirrors n site F b r'.1 r.1
  event : r.2 = r'.2

section Operations

variable {n : Nat} {site : List Pending → Prop} {F : Fold} {b : Bool} {m' m : Machine} {e : Option Event}

theorem Beside.turn (h : Beside n site F b m' m) {g f : Focus} (hf : g.Like site F m.pending f)
    (hd : F.gone m'.here → f.declares = false) : Matches n site F (m'.turn g, e) (m.turn f, e) :=
  ⟨⟨b, ⟨h.pending, h.here, h.calls, h.store, h.stopped, h.cursor, h.settings⟩, hf, hd⟩, rfl⟩

theorem Beside.push (h : Beside n site F b m' m) {g f : Focus} {w' w : Pending} (hf : g.Like site F (w :: m.pending) f)
    (hd : F.gone m'.here → f.declares = false) (hr : w'.isRow = false) (hw : w'.Like site F m.pending w)
    (hwd : F.gone m'.here → w.declares = false) : Matches n site F (m'.push g w', e) (m.push f w, e) :=
  ⟨⟨true, ⟨.work hr hw hwd h.pending, h.here, h.calls, h.store, h.stopped, h.cursor, h.settings⟩, hf, hd⟩, rfl⟩

/-- An expression is looked at, and the work that waits for it has the same values. -/
theorem Beside.await (h : Beside n site F b m' m) (x : Expr) {w' w : Pending} (hr : w'.isRow = false)
    (hw : w'.Like site F m.pending w) (hwd : w.declares = false) :
    Matches n site F (m'.push (.eval x) w', e) (m.push (.eval x) w, e) :=
  h.push rfl (fun _ => rfl) hr hw fun _ => hwd

theorem Beside.raise (h : Beside n site F b m' m) (span : Span) (f : RuntimeFault) :
    Matches n site F (m'.raise span f, e) (m.raise span f, e) := h.turn rfl fun _ => rfl

theorem Beside.settle (h : Beside n site F b m' m) (span : Span) {r' r : Except RuntimeFault Value}
    (hr : r = r'.map (Value.rename F.place)) : Matches n site F (m'.settle span r', e) (m.settle span r, e) := by
  subst hr
  cases r' with
  | ok v => exact h.turn (g := .give v) rfl fun _ => rfl
  | error f => exact h.raise span f

/-- What operators make of values is plain. -/
theorem Beside.settle_plain (h : Beside n site F b m' m) (span : Span) {r' r : Except RuntimeFault Value}
    (hr : r = r') (hp : Plainly r') : Matches n site F (m'.settle span r', e) (m.settle span r, e) := by
  refine h.settle span (hr.trans ?_)
  cases r' with
  | ok v => exact congrArg Except.ok (Value.Plain.rename hp).symm
  | error f => rfl

theorem Beside.request (h : Beside n site F b m' m) (keep : Bool) (span : Span) (prompt : String) :
    Matches n site F (m'.request keep span prompt, e) (m.request keep span prompt, e) := by
  unfold Machine.request
  rw [h.stopped]
  split
  · exact h.turn rfl fun _ => rfl
  · exact h.push rfl (fun _ => rfl) rfl rfl fun _ => rfl

/-- The data are changed on both sides. -/
theorem Beside.edit (h : Beside n site F b m' m) {u t : Store} (ht : u.Folds n F t) :
    Beside n site F b { m' with store := u } { m with store := t } :=
  ⟨h.pending, h.here, h.calls, ht, h.stopped, h.cursor, h.settings⟩

theorem Beside.runBuiltin (h : Beside n site F b m' m) (f : Builtin) (args : List Value) (span : Span) :
    Matches n site F (m'.runBuiltin f args span) (m.runBuiltin f (args.map (Value.rename F.place)) span) := by
  obtain ⟨hanswer, hstore⟩ := run_rename h.store.toRenames f args
  have hscopes : (f.run args m'.store).2.scopes.Folds n F
      (f.run (args.map (Value.rename F.place)) m.store).2.scopes := by
    rw [Builtin.scopes_run, Builtin.scopes_run]
    exact h.store.scopes
  have hb := h.edit ⟨hstore, hscopes⟩
  show Matches n site F (takeAnswer { m' with store := (f.run args m'.store).2 } span (f.run args m'.store).1)
    (takeAnswer { m with store := (f.run (args.map (Value.rename F.place)) m.store).2 } span
      (f.run (args.map (Value.rename F.place)) m.store).1)
  rw [hanswer]
  cases (f.run args m'.store).1 with
  | value v => exact hb.turn (g := .give v) rfl fun _ => rfl
  | write | writeLine | clear => exact hb.turn (g := .give .null) rfl fun _ => rfl
  | ask prompt => exact hb.request true span prompt
  | fault f => exact hb.raise span f

/-- **A variable is given a value**: if that makes a variable in the current frame of the second machine, the first is
not in a frame that is folded away. -/
theorem Beside.assign (h : Beside n site F b m' m) {g f : Focus} (hf : g.Like site F m.pending f)
    (hd : f.declares = false) (x : String) (v : Value)
    (hs : F.gone m'.here → m.settings.assignScope = .current → ∀ y,
      (m.assignVariable x (v.rename F.place)).store.scopes.Binds m.here y → m.store.scopes.Binds m.here y) :
    Matches n site F ((m'.turn g).assignVariable x v, e) ((m.turn f).assignVariable x (v.rename F.place), e) := by
  obtain ⟨hhome, hkept⟩ := h.store.scopes.home? m'.here x
  rw [← h.here] at hhome
  -- The frames that the variable is bound in go together, and the first stays.
  have htarget : ∃ t, ¬F.gone t ∧ ((m'.turn g).assignVariable x v).store = m'.store.mapScopes (·.define t x v) ∧
      ((m.turn f).assignVariable x (v.rename F.place)).store =
        m.store.mapScopes (·.define (F.place t) x (v.rename F.place)) := by
    cases hx : m'.store.scopes.home? m'.here x with
    | some home =>
      rw [hx] at hhome
      refine ⟨home, hkept home hx, ?_, ?_⟩
      · simp only [assignVariable, Machine.turn, hx]
        rfl
      · simp only [assignVariable, Machine.turn, hhome]
        rfl
    | none =>
      rw [hx] at hhome
      cases ha : m'.settings.assignScope with
      | current =>
        have ha' : m.settings.assignScope = .current := by rw [h.settings, ha]
        refine ⟨m'.here, fun hg => ?_, ?_, ?_⟩
        · have hlt : m.here < m.store.scopes.size := by
            rw [h.here]
            exact h.store.scopes.lt _ (h.store.scopes.within _ hg)
          have hafter : (m.assignVariable x (v.rename F.place)).store.scopes.Binds m.here x := by
            simp only [assignVariable, hhome, ha', Option.map_none]
            exact Scopes.binds_define.2 (Or.inr ⟨rfl, hlt, rfl⟩)
          have hbefore := hs hg ha' x hafter
          rw [Scopes.home?_eq, show (m.store.scopes.slots m.here).contains x = true from hbefore] at hhome
          cases hhome
        · simp only [assignVariable, Machine.turn, hx, ha]
          rfl
        · simp only [assignVariable, Machine.turn, hhome, Option.map_none, ha', ← h.here]
          rfl
      | global =>
        have ha' : m.settings.assignScope = .global := by rw [h.settings, ha]
        obtain ⟨hto, hgone⟩ := h.store.scopes.kept Store.globals h.store.scopes.some
        refine ⟨Store.globals, hgone, ?_, ?_⟩
        · simp only [assignVariable, Machine.turn, hx, ha]
          rfl
        · simp only [assignVariable, Machine.turn, hhome, Option.map_none, ha', hto]
          rfl
  obtain ⟨t, ht, hstore', hstore⟩ := htarget
  have hfolds : Store.Folds n F (m'.store.mapScopes (·.define t x v))
      (m.store.mapScopes (·.define (F.place t) x (v.rename F.place))) :=
    ⟨⟨h.store.arrays, h.store.closures, h.store.random⟩, h.store.scopes.define ht x v⟩
  rw [← hstore', ← hstore] at hfolds
  exact ⟨⟨b, ⟨h.pending, h.here, h.calls, hfolds, h.stopped, h.cursor, h.settings⟩, hf, fun _ => hd⟩, rfl⟩

end Operations

/-! ## One step -/

section Step

variable {n : Nat} {site : List Pending → Prop} {F : Fold} {b : Bool} {m' m : Machine}

theorem Beside.startStatement (h : Beside n site F b m' m) {s' s : Stmt} (hs : Clad site m.pending s' s)
    (hd : F.gone m'.here → s.declares = false) (hr : m'.stopped = true ∨ Akin site m.pending s' s) :
    Matches n site F (m'.startStatement s') (m.startStatement s) := by
  unfold Machine.startStatement
  rw [h.stopped]
  split
  · rw [hs.span_eq]
    exact h.turn rfl fun _ => rfl
  · rename_i hstopped
    have ha := hr.resolve_left hstopped
    rw [ha.isBlock_eq, Stmt.line, Stmt.line, ha.span_eq]
    split <;> exact h.turn ⟨s, rfl, ha⟩ hd

/-- A block is entered on both sides. -/
theorem Beside.enterBlock (h : Beside n site F b m' m) {ss' ss : List Stmt} (hr : Rows site m.pending ss' ss) :
    Matches n site F ((m'.enter m'.here).push .done (.block m'.here ss'), none)
      ((m.enter m.here).push .done (.block m.here ss), none) := by
  have hnew := h.store.scopes.not_gone
  refine ⟨⟨true, ⟨?_, (h.store.scopes.fresh 0).symm, h.calls, ?_, h.stopped, h.cursor, h.settings⟩, rfl, fun _ => rfl⟩,
    rfl⟩
  · show Aligned site F true m'.store.scopes.size (.block m'.here ss' :: m'.pending) (.block m.here ss :: m.pending)
    rw [h.here]
    exact .block hnew hr h.pending
  · refine ⟨⟨h.store.arrays, h.store.closures, h.store.random⟩, ?_⟩
    show (m'.store.scopes.child m'.here).Folds n F (m.store.scopes.child m.here)
    rw [h.here]
    exact h.store.scopes.child m'.here

/-- A function is declared on both sides, in a frame that stays. -/
theorem Beside.declare (h : Beside n site F b m' m) (hg : ¬F.gone m'.here) (x : String) (params : List String)
    (body : List Stmt) (span : Span) : Matches n site F (m'.execStatement (.function x params body span), none)
      (m.execStatement (.function x params body span), none) := by
  have hdefine := h.store.scopes.define hg x (.closure ⟨m'.store.closures, x, params, body, m'.here⟩)
  have hstore : Store.Folds n F (m'.execStatement (.function x params body span)).store
      (m.execStatement (.function x params body span)).store := by
    refine ⟨⟨h.store.arrays, congrArg (· + 1) h.store.closures, h.store.random⟩, ?_⟩
    show Scopes.Folds n F _ (m.store.scopes.define m.here x (.closure ⟨m.store.closures, x, params, body, m.here⟩))
    rw [h.here, h.store.closures]
    exact hdefine
  exact ⟨⟨b, ⟨h.pending, h.here, h.calls, hstore, h.stopped, h.cursor, h.settings⟩, rfl, fun _ => rfl⟩, rfl⟩

theorem Beside.execStatement (h : Beside n site F b m' m) {s' s : Stmt} (hs : Akin site m.pending s' s)
    (hd : F.gone m'.here → s.declares = false) :
    Matches n site F (m'.execStatement s', none) (m.execStatement s, none) := by
  cases hs with
  | loop span hbody => exact h.push rfl (fun _ => rfl) rfl ⟨_, rfl, hbody⟩ hd
  | block span hr => exact h.enterBlock hr
  | same =>
    cases s' with
    | expr x _ | print x _ _ | assign _ x _ => exact h.await x rfl rfl rfl
    | loop x body _ => exact h.push rfl (fun _ => rfl) rfl ⟨_, rfl, .akin (.same _)⟩ hd
    | branch x yes no _ => exact h.push rfl (fun _ => rfl) rfl rfl fun hg => by cases no <;> exact hd hg
    | input keyword prompt span =>
      cases prompt with
      | none => exact h.request false span _
      | some x => exact h.await x rfl rfl rfl
    | block body _ => exact h.enterBlock (.same body)
    | function x params body span => exact h.declare (fun hg => nomatch hd hg) x params body span
    | leave value _ =>
      cases value with
      | none => exact h.turn (g := .leave .null) rfl fun _ => rfl
      | some x => exact h.await x rfl rfl rfl

theorem Beside.evalExpression (h : Beside n site F b m' m) (x : Expr) :
    Matches n site F (m'.evalExpression x, none) (m.evalExpression x, none) := by
  cases x with
  | literal value _ =>
    exact h.turn (g := .give (.ofLiteral value)) (congrArg Focus.give (plain_ofLiteral value).rename.symm) fun _ => rfl
  | name x span =>
    have hx := h.store.scopes.get? m'.here x
    rw [← h.here] at hx
    simp only [Machine.evalExpression, hx]
    cases m'.store.scopes.get? m'.here x with
    | none => exact h.raise span _
    | some v => exact h.turn (g := .give v) rfl fun _ => rfl
  | group inner _ => exact h.turn (g := .eval inner) rfl fun _ => rfl
  | array items _ =>
    cases items with
    | nil =>
      obtain ⟨hv, hs⟩ := h.store.toRenames.newArray #[]
      rw [Array.map_empty] at hv hs
      have hb := h.edit (u := (m'.store.newArray #[]).2) (t := (m.store.newArray #[]).2) ⟨hs, h.store.scopes⟩
      exact hb.turn (g := .give (m'.store.newArray #[]).1) (congrArg Focus.give hv) fun _ => rfl
    | cons x rest => exact h.await x rfl rfl rfl
  | assign _ x _ | binary _ x _ _ | logical _ x _ _ | unary _ x _ | call x _ _ | property x _ _ | element x _ _
  | setProperty x _ _ _ | setElement x _ _ _ => exact h.await x rfl rfl rfl

/-- A function is entered on both sides. -/
theorem Beside.enterFunction (h : Beside n site F b m' m) (f : Closure) (args : List Value) (span : Span) :
    Matches n site F (m'.enterFunction f args span, none)
      (m.enterFunction { f with home := F.place f.home } (args.map (Value.rename F.place)) span, none) := by
  have hnew := h.store.scopes.not_gone
  have hto : F.place m'.store.scopes.size = m.store.scopes.size := h.store.scopes.fresh 0
  refine ⟨⟨true, ⟨?_, hto.symm, congrArg (Calls.push · _) h.calls, ?_, h.stopped, h.cursor, h.settings⟩, rfl,
    fun _ => rfl⟩, rfl⟩
  · show Aligned site F true m'.store.scopes.size (.call m'.here f.body :: m'.pending)
      (.call m.here f.body :: m.pending)
    rw [h.here]
    exact .call hnew h.pending
  · refine ⟨⟨h.store.arrays, h.store.closures, h.store.random⟩, ?_⟩
    rw [scopes_enterFunction, scopes_enterFunction, ← hto]
    exact (h.store.scopes.child f.home).bindAll hnew f.params args

theorem Beside.applyValue (h : Beside n site F b m' m) (callee : Value) (args : List Value) (span : Span) :
    Matches n site F (m'.applyValue callee args span)
      (m.applyValue (callee.rename F.place) (args.map (Value.rename F.place)) span) := by
  cases callee with
  | native f =>
    simp only [Value.rename, Machine.applyValue, List.length_map]
    cases f.arity with
    | fixed count =>
      dsimp only
      split
      · exact h.runBuiltin f.builtin args span
      · exact h.raise span _
    | variadic => exact h.runBuiltin f.builtin args span
  | closure f =>
    have hdepth : m.depth = m'.depth := congrArg Calls.depth h.calls
    simp only [Value.rename, Machine.applyValue, List.length_map, h.settings, hdepth]
    split
    · exact h.raise span _
    · split
      · exact h.raise span _
      · exact h.enterFunction f args span
  | null | boolean | number | text | array => exact h.raise span _

/-- A value is handed to pending work that waits for one. -/
theorem Beside.takeValue (h : Beside n site F b m' m) (v : Value) {w' w : Pending} (hr : w'.isRow = false)
    (hv : w'.takes = .value) (hw : w'.Like site F m.pending w) (hd : F.gone m'.here → w.declares = false)
    (hs : F.gone m'.here → m.settings.assignScope = .current → ∀ y,
      (m.takeValue (v.rename F.place) w).1.store.scopes.Binds m.here y → m.store.scopes.Binds m.here y) :
    Matches n site F (m'.takeValue v w') (m.takeValue (v.rename F.place) w) := by
  have hrename := h.store.toRenames
  cases w' with
  | reply | block | again | call | program => cases hv
  | test c body' =>
    obtain ⟨body, rfl, hbody⟩ := hw
    simp only [Machine.takeValue, truthy_rename hrename]
    split
    · exact h.push ⟨_, rfl, hbody⟩ hd rfl ⟨_, rfl, hbody⟩ hd
    · exact h.turn (g := .done) rfl fun _ => rfl
  | discard =>
    obtain rfl := hw
    have hdone : Matches n site F (m'.turn .done, none) (m.turn .done, none) := h.turn rfl fun _ => rfl
    obtain ⟨⟨b, hm⟩, -⟩ := hdone
    simp only [Machine.takeValue, Pending.rename]
    refine ⟨⟨b, ?_⟩, ?_⟩
    · split <;> split <;> exact ⟨⟨hm.pending, hm.here, hm.calls, hm.store, hm.stopped, hm.cursor, hm.settings⟩, rfl,
        fun _ => rfl⟩
    · split <;> split <;> rfl
  | write newline =>
    obtain rfl := hw
    cases newline <;> simp only [Machine.takeValue, Pending.rename, display_rename hrename] <;>
      exact h.turn (g := .done) rfl fun _ => rfl
  | prompt span =>
    obtain rfl := hw
    simp only [Machine.takeValue, Pending.rename, display_rename hrename]
    exact h.request false span _
  | bind x =>
    obtain rfl := hw
    exact h.assign (g := .done) rfl rfl x v hs
  | assign x =>
    obtain rfl := hw
    exact h.assign (g := .give v) rfl rfl x v hs
  | choose yes no =>
    obtain rfl := hw
    have hsame : ∀ s, Clad site m.pending s s := fun s => .akin (.same s)
    simp only [Machine.takeValue, Pending.rename, truthy_rename hrename]
    cases no with
    | none =>
      split
      · exact h.turn ⟨yes, rfl, hsame yes⟩ hd
      · exact h.turn (g := .done) rfl fun _ => rfl
    | some s =>
      have hd' : F.gone m'.here → yes.declares = false ∧ s.declares = false := fun hg => by
        simpa [Pending.declares, Pending.rename] using hd hg
      split
      · exact h.turn ⟨yes, rfl, hsame yes⟩ fun hg => (hd' hg).1
      · exact h.turn ⟨s, rfl, hsame s⟩ fun hg => (hd' hg).2
  | returning =>
    obtain rfl := hw
    exact h.turn (g := .leave v) rfl fun _ => rfl
  | right op x span =>
    obtain rfl := hw
    exact h.await x rfl rfl rfl
  | combine op left span =>
    obtain rfl := hw
    exact h.settle_plain span (binary_rename hrename op left v) (plainly_binary op left v)
  | logical op x =>
    obtain rfl := hw
    simp only [Machine.takeValue, Pending.rename, settles_rename hrename]
    split
    · exact h.turn (g := .give v) rfl fun _ => rfl
    · exact h.turn (g := .eval x) rfl fun _ => rfl
  | unary op span =>
    obtain rfl := hw
    exact h.settle_plain span (unary_rename hrename op v) (plainly_unary op v)
  | callee args span =>
    obtain rfl := hw
    cases args with
    | nil => exact h.turn (g := .apply v [] span) rfl fun _ => rfl
    | cons x rest => exact h.await x rfl rfl rfl
  | argument f before rest span =>
    obtain rfl := hw
    cases rest with
    | nil =>
      refine h.turn (g := .apply f (v :: before).reverse span) ?_ fun _ => rfl
      simp [Focus.Like, Focus.rename]
    | cons x rest => exact h.await x rfl rfl rfl
  | item before rest =>
    obtain rfl := hw
    cases rest with
    | nil =>
      obtain ⟨hvalue, hstore⟩ := hrename.newArray (v :: before).reverse.toArray
      have hitems : (v :: before).reverse.toArray.map (Value.rename F.place) =
          (v.rename F.place :: before.map (Value.rename F.place)).reverse.toArray := by
        rw [List.map_toArray, List.map_reverse]
        rfl
      rw [hitems] at hvalue hstore
      have hb := h.edit (u := (m'.store.newArray (v :: before).reverse.toArray).2) ⟨hstore, h.store.scopes⟩
      exact hb.turn (g := .give (m'.store.newArray (v :: before).reverse.toArray).1) (congrArg Focus.give hvalue)
        fun _ => rfl
    | cons x rest => exact h.await x rfl rfl rfl
  | property x span =>
    obtain rfl := hw
    exact h.settle_plain span (readProperty_rename hrename v x) (plainly_readProperty v x)
  | object x span =>
    obtain rfl := hw
    exact h.await x rfl rfl rfl
  | index object span =>
    obtain rfl := hw
    exact h.settle span (readElement_rename hrename object v)
  | setProperty x span =>
    obtain rfl := hw
    cases v <;> exact h.raise span _
  | setObject x value span =>
    obtain rfl := hw
    cases v with
    | null => exact h.raise span _
    | _ => exact h.await x rfl rfl rfl
  | setIndex object x span =>
    obtain rfl := hw
    exact h.await x rfl rfl rfl
  | setValue object index span =>
    obtain rfl := hw
    simp only [Machine.takeValue, Pending.rename, writePlace_rename]
    cases writePlace object index with
    | error f => exact h.raise span f
    | ok place =>
      obtain ⟨id, i⟩ := place
      have hb := h.edit (u := m'.store.mapItems id (Store.writeAt · i v))
        (t := m.store.mapItems id (Store.writeAt · i (v.rename F.place)))
        ⟨hrename.mapItems id fun items => writeAt_rename items i v, h.store.scopes⟩
      exact hb.turn (g := .give v) rfl fun _ => rfl

end Step

/-! ## Outward steps -/

section Outward

variable {n : Nat} {site : List Pending → Prop} {F : Fold} {b : Bool} {m' m : Machine} {rest' rest : List Pending}

/-- The machines without their innermost work. -/
theorem Beside.without (h : Beside n site F true m' m) (ha : Aligned site F b m'.here rest' rest) :
    Beside n site F b { m' with pending := rest' } { m with pending := rest } :=
  ⟨ha, h.here, h.calls, h.store, h.stopped, h.cursor, h.settings⟩

/-- They come back to the frames that go together. -/
theorem Beside.back (h : Beside n site F true m' m) {outer : FrameId} (ha : Aligned site F b outer rest' rest)
    {c' c : Calls} (hc : c = c') {g f : Focus} (hf : g.Like site F rest f) (hd : f.declares = false) :
    Matches n site F ({ m' with focus := g, pending := rest', here := outer, calls := c' }, none)
      ({ m with focus := f, pending := rest, here := F.place outer, calls := c }, none) :=
  ⟨⟨b, ⟨ha, rfl, hc, h.store, h.stopped, h.cursor, h.settings⟩, hf, fun _ => hd⟩, rfl⟩

/-- They stay as they are. -/
theorem Beside.stay (h : Beside n site F true m' m) (ha : Aligned site F b m'.here rest' rest)
    (hf : m'.focus.Like site F rest m.focus) (hd : m.focus.declares = false) :
    Matches n site F ({ m' with pending := rest' }, none) ({ m with pending := rest }, none) :=
  ⟨⟨b, h.without ha, hf, fun _ => hd⟩, rfl⟩

theorem Beside.afterStatement (h : Beside n site F true m' m) (hm' : m'.focus = .done) (hm : m.focus = .done)
    {w' w : Pending} (ht : Top site F m'.here w' rest' w rest) :
    Matches n site F (({ m' with pending := rest' } : Machine).afterStatement w', none)
      (({ m with pending := rest } : Machine).afterStatement w, none) := by
  have hdone : m'.focus.Like site F rest m.focus := by
    rw [hm', hm]
    rfl
  have hplain : m.focus.declares = false := by rw [hm]; rfl
  cases ht with
  | block hg hr ha =>
    rename_i outer ss' ss
    cases ss' with
    | nil =>
      obtain rfl := hr.eq_nil
      exact h.back ha h.calls hdone hplain
    | cons s' ss' =>
      obtain ⟨s, tail, rfl, htail, hs⟩ := hr.uncons
      exact ⟨⟨true, ⟨.block hg htail ha, h.here, h.calls, h.store, h.stopped, h.cursor, h.settings⟩, ⟨s, rfl, hs _⟩,
        fun hgone => absurd hgone hg⟩, rfl⟩
  | call hg ha =>
    rename_i outer ss
    cases ss with
    | nil => exact h.back ha (congrArg Calls.pop h.calls) (g := .give .null) rfl rfl
    | cons s ss =>
      exact ⟨⟨true, ⟨.call hg ha, h.here, h.calls, h.store, h.stopped, h.cursor, h.settings⟩,
        ⟨s, rfl, .akin (.same s)⟩, fun hgone => absurd hgone hg⟩, rfl⟩
  | work hr hw hd ha =>
    have hstay := h.stay ha hdone hplain
    cases w' with
    | block | call | program => cases hr
    | again c body' =>
      obtain ⟨body, rfl, hbody⟩ := hw
      exact (h.without ha).push rfl (fun _ => rfl) rfl ⟨body, rfl, hbody⟩ hd
    | test c body' =>
      obtain ⟨body, rfl, -⟩ := hw
      exact hstay
    | _ =>
      obtain rfl := hw
      exact hstay

theorem Beside.leaveThrough (h : Beside n site F true m' m) {v : Value} (hm' : m'.focus = .leave v)
    (hm : m.focus = .leave (v.rename F.place)) {w' w : Pending} (ht : Top site F m'.here w' rest' w rest) :
    Matches n site F (({ m' with pending := rest' } : Machine).leaveThrough v w', none)
      (({ m with pending := rest } : Machine).leaveThrough (v.rename F.place) w, none) := by
  have hleave : m'.focus.Like site F rest m.focus := by
    rw [hm', hm]
    rfl
  have hplain : m.focus.declares = false := by rw [hm]; rfl
  cases ht with
  | block hg hr ha => exact h.back ha h.calls hleave hplain
  | call hg ha => exact h.back ha (congrArg Calls.pop h.calls) (g := .give v) rfl rfl
  | work hr hw hd ha =>
    have hstay := h.stay ha hleave hplain
    cases w' with
    | block | call | program => cases hr
    | again c body' | test c body' =>
      obtain ⟨body, rfl, -⟩ := hw
      exact hstay
    | _ =>
      obtain rfl := hw
      exact hstay

theorem Beside.failThrough (h : Beside n site F true m' m) {d : Diagnostic} (hm' : m'.focus = .fail d)
    (hm : m.focus = .fail d) {w' w : Pending} (ht : Top site F m'.here w' rest' w rest) :
    Matches n site F (({ m' with pending := rest' } : Machine).failThrough w', none)
      (({ m with pending := rest } : Machine).failThrough w, none) := by
  have hfail : m'.focus.Like site F rest m.focus := by
    rw [hm', hm]
    rfl
  have hplain : m.focus.declares = false := by rw [hm]; rfl
  cases ht with
  | block hg hr ha => exact h.back ha h.calls hfail hplain
  | call hg ha => exact h.back ha (congrArg Calls.pop h.calls) hfail hplain
  | work hr hw hd ha =>
    have hstay := h.stay ha hfail hplain
    cases w' with
    | block | call | program => cases hr
    | again c body' | test c body' =>
      obtain ⟨body, rfl, -⟩ := hw
      exact hstay
    | _ =>
      obtain rfl := hw
      exact hstay

end Outward

/-! ## Steps in step -/

/-- The first machine has no block to enter or to come back from on its own. -/
structure Ready (site : List Pending → Prop) (b : Bool) (m' m : Machine) : Prop where
  level : m'.focus.isDue = true → b = true
  akin : ∀ s' s, m'.focus = .start s' → m.focus = .start s → m'.stopped = true ∨ Akin site m.pending s' s

/-- Where variables are made in the current frame, the next step makes none there if a block is left out between that
frame and the work that the machine is at. -/
def Spares (site : List Pending → Prop) (m : Machine) : Prop :=
  m.settings.assignScope = .current → ∀ work rest, m.pending = work ++ rest → site rest →
    (∀ w ∈ work, w.isScope = false) → ∀ x, m.step.1.store.scopes.Binds m.here x → m.store.scopes.Binds m.here x

section Lockstep

variable {n : Nat} {site : List Pending → Prop} {F : Fold} {b : Bool} {m' m : Machine}

/-- In a frame that is folded away, a block is left out around the work. -/
theorem Aligned.direct {f : FrameId} {p' p : List Pending} (h : Aligned site F b f p' p) (hg : F.gone f) :
    ∃ work rest, p = work ++ rest ∧ site rest ∧ ∀ w ∈ work, w.isScope = false := by
  induction h with
  | nil hn => exact absurd hg hn
  | block hn | call hn => exact absurd hg hn
  | fold _ _ hs _ => exact ⟨[], _, rfl, hs, List.forall_mem_nil _⟩
  | @work _ _ w' w _ _ hr hw _ _ ih =>
    obtain ⟨work, rest, rfl, hs, hwork⟩ := ih hg
    refine ⟨w :: work, rest, rfl, hs, List.forall_mem_cons.2 ⟨?_, hwork⟩⟩
    cases w' with
    | block | call | program => cases hr
    | test | again =>
      obtain ⟨body, rfl, -⟩ := hw
      rfl
    | _ =>
      obtain rfl := hw
      rfl

/-- In a frame that is folded away, the next step of the second machine makes no variable. -/
theorem Mirrors.spares (h : Mirrors n site F b m' m) (hs : Spares site m) (hg : F.gone m'.here)
    (hc : m.settings.assignScope = .current) (x : String) (hx : m.step.1.store.scopes.Binds m.here x) :
    m.store.scopes.Binds m.here x := by
  obtain ⟨work, rest, hp, hsite, hwork⟩ := Aligned.direct h.pending hg
  exact hs hc work rest hp hsite hwork x hx

theorem isDue_eq_of_like {base : List Pending} {g f : Focus} (h : g.Like site F base f) : f.isDue = g.isDue := by
  cases g with
  | start | exec =>
    obtain ⟨s, rfl, -⟩ := h
    rfl
  | _ =>
    obtain rfl := h
    rfl

/-- What is handed outward is handed to the innermost work on both sides, or to none. -/
theorem Beside.top (h : Beside n site F true m' m) : (m'.pending = [] ∧ m.pending = []) ∨ ∃ w' rest' w rest,
    m'.pending = w' :: rest' ∧ m.pending = w :: rest ∧ Top site F m'.here w' rest' w rest := by
  have ha := h.pending
  cases hp : m'.pending with
  | nil =>
    rw [hp] at ha
    exact Or.inl ⟨rfl, ha.eq_nil⟩
  | cons w' rest' =>
    rw [hp] at ha
    obtain ⟨w, rest, hm, ht⟩ := ha.top
    exact Or.inr ⟨w', rest', w, rest, rfl, hm, ht⟩

/-- A machine that has nothing pending stays as it is once it hands something outward. -/
theorem step_of_empty (hd : m.focus.isDue = true) (hp : m.pending = []) : m.step = (m, none) := by
  cases hm : m.focus with
  | start | exec | eval | apply =>
    rw [hm] at hd
    cases hd
  | await | give | done | leave | fail => simp only [Machine.step, hm, hp]

/-- A step outward. -/
theorem Mirrors.step_due (h : Mirrors n site F true m' m) (hd : m'.focus.isDue = true)
    (hv : ∀ v w rest, m'.focus = .give v → m'.pending = w :: rest → w.takes = .value) (hs : Spares site m) :
    Matches n site F m'.step m.step := by
  have hf := h.focus
  rcases h.top with ⟨hp', hp⟩ | ⟨w', rest', w, rest, hp', hp, ht⟩
  · rw [step_of_empty hd hp', step_of_empty ((isDue_eq_of_like hf).trans hd) hp]
    exact ⟨⟨true, h⟩, rfl⟩
  · cases hm' : m'.focus with
    | start | exec | eval | apply =>
      rw [hm'] at hd
      cases hd
    | await prompt =>
      rw [hm'] at hf
      have hm : m.focus = .await prompt := hf
      simp only [Machine.step, hm', hm]
      exact ⟨⟨true, h⟩, rfl⟩
    | give v =>
      rw [hm'] at hf
      have hm : m.focus = .give (v.rename F.place) := hf
      have htakes := hv v w' rest' hm' hp'
      have hspares := h.spares hs
      rw [step_give hm hp] at hspares
      rw [step_give hm' hp', step_give hm hp]
      cases ht with
      | work hrow hw hd ha => exact (h.without ha).takeValue v hrow htakes hw hd hspares
      | block | call => cases htakes
    | done =>
      rw [hm'] at hf
      have hm : m.focus = .done := hf
      rw [step_done hm' hp', step_done hm hp]
      exact h.afterStatement hm' hm ht
    | leave v =>
      rw [hm'] at hf
      have hm : m.focus = .leave (v.rename F.place) := hf
      rw [step_leave hm' hp', step_leave hm hp]
      exact h.leaveThrough hm' hm ht
    | fail d =>
      rw [hm'] at hf
      have hm : m.focus = .fail d := hf
      rw [step_fail hm' hp', step_fail hm hp]
      exact h.failThrough hm' hm ht

/-- **Machines that mirror each other make the same step**, if the first is ready for it. -/
theorem Mirrors.step (h : Mirrors n site F b m' m) (hr : Ready site b m' m)
    (hv : ∀ v w rest, m'.focus = .give v → m'.pending = w :: rest → w.takes = .value) (hs : Spares site m) :
    Matches n site F m'.step m.step := by
  have hf := h.focus
  have hundeclared := h.undeclared
  have hdue : m'.focus.isDue = true → Matches n site F m'.step m.step := fun hd => by
    obtain rfl := hr.level hd
    exact h.step_due hd hv hs
  cases hm' : m'.focus with
  | start s' =>
    rw [hm'] at hf
    obtain ⟨s, hm, hclad⟩ := hf
    rw [hm] at hundeclared
    simp only [Machine.step, hm', hm]
    exact h.startStatement hclad hundeclared (hr.akin s' s hm' hm)
  | exec s' =>
    rw [hm'] at hf
    obtain ⟨s, hm, hakin⟩ := hf
    rw [hm] at hundeclared
    simp only [Machine.step, hm', hm]
    exact h.execStatement hakin hundeclared
  | eval x =>
    rw [hm'] at hf
    have hm : m.focus = .eval x := hf
    simp only [Machine.step, hm', hm]
    exact h.evalExpression x
  | apply callee args span =>
    rw [hm'] at hf
    have hm : m.focus = .apply (callee.rename F.place) (args.map (Value.rename F.place)) span := hf
    simp only [Machine.step, hm', hm]
    exact h.applyValue callee args span
  | await | give | done | leave | fail => exact hdue (by rw [hm']; rfl)

/-- A decision about an event does the same to both. -/
theorem Mirrors.heed (h : Mirrors n site F b m' m) (v : Verdict) : Mirrors n site F b (m'.heed v) (m.heed v) := by
  have hstop : Mirrors n site F b (if v.stop then m'.stop else m') (if v.stop then m.stop else m) := by
    split
    · exact ⟨⟨h.pending, h.here, h.calls, h.store, rfl, h.cursor, h.settings⟩, h.focus, h.undeclared⟩
    · exact h
  unfold Machine.heed
  cases v.course with
  | proceed | hold => exact hstop
  | refuse d =>
    exact ⟨⟨hstop.pending, hstop.here, hstop.calls, hstop.store, hstop.stopped, hstop.cursor, hstop.settings⟩, rfl,
      fun _ => rfl⟩

/-- What a machine is about to do once its read is answered. -/
theorem answer_eq {prompt : String} (hm : m.focus = .await prompt) {keep : Bool} {span : Span} {rest : List Pending}
    (hp : m.pending = .reply keep span :: rest) (reply : Reply) :
    m.answer reply = ({ m with pending := rest } : Machine).turn
      (match reply with
      | .line text => if keep then .give (.text text) else .done
      | .cancelled => if m.stopped then .fail (.halted span) else .fail (.inputCancelled span)) := by
  obtain ⟨focus, pending, here, calls, store, stopped, cursor, latest, settings⟩ := m
  cases hm
  cases hp
  cases reply with
  | line text => cases keep <;> rfl
  | cancelled => cases stopped <;> rfl

/-- An answer to a read does the same to both. -/
theorem Mirrors.answer (h : Mirrors n site F true m' m) {prompt : String} (hm' : m'.focus = .await prompt) {keep : Bool}
    {span : Span} {rest' : List Pending} (hp' : m'.pending = .reply keep span :: rest') (reply : Reply) :
    ∃ b, Mirrors n site F b (m'.answer reply) (m.answer reply) := by
  have hf := h.focus
  have ha := h.pending
  rw [hm'] at hf
  rw [hp'] at ha
  have hm : m.focus = .await prompt := hf
  obtain ⟨w, rest, hp, ht⟩ := ha.top
  cases ht with
  | work hrow hw hd ha =>
    obtain rfl := hw
    rw [answer_eq hm' hp', answer_eq hm hp]
    refine ((h.without ha).turn (e := none) ?_ fun _ => ?_).machine <;> rw [h.stopped]
    · cases reply with
      | line text => cases keep <;> rfl
      | cancelled => cases m'.stopped <;> rfl
    · cases reply with
      | line text => cases keep <;> rfl
      | cancelled => cases m'.stopped <;> rfl

end Lockstep

end Machine

end StepScript
