import StepScript.Proofs.Machine.Home
import StepScript.Proofs.Machine.Plain
import StepScript.Proofs.Machine.Shift

/-!
# Taking stock of a machine

A machine takes code apart and hands values on. The only values that it makes are data, arrays, and functions as the code
in hand declares them: it makes no builtins, and no code.

* A `Demand` says what is asked of functions. It holds of all functions in a store (`Store.Sound`), and builtins keep it
  (`sound_run`).
* `Coded d Q base m` takes stock of a machine: `Q` holds of the code above `base`, and the functions among its values are
  as asked. One step keeps it (`Coded.step`), and so does a line that is read (`Coded.answer`).
-/

namespace StepScript

/-! ## Values and the store -/

/-- What is asked of functions: of those that programs declare, and of the builtin ones. -/
structure Demand where
  closure : Closure → Prop
  native : Native → Prop

/-- If a value is a function, it is as asked. -/
def Value.Sound (d : Demand) : Value → Prop
  | closure f => d.closure f
  | native f => d.native f
  | _ => True

/-- Every value that the store holds is sound. -/
structure Store.Sound (d : Demand) (s : Store) : Prop where
  scopes : ∀ f x v, (s.scopes.slots f).find? x = some v → v.Sound d
  arrays : ∀ id v, v ∈ s.items id → v.Sound d

section Values

variable {d : Demand} {s : Store}

theorem Value.Data.sound {v : Value} (h : v.Data) : v.Sound d := by
  cases v with
  | array | closure | native => exact h.elim
  | _ => trivial

theorem Comes.sound {r : Except RuntimeFault Value} (h : Comes Value.Data r) : Comes (Value.Sound d) r :=
  h.mono fun _ => Value.Data.sound

theorem comes_readElement (hs : s.Sound d) (object index : Value) :
    Comes (Value.Sound d) (readElement s object index) := by
  unfold readElement
  split
  · rename_i id
    refine comes_bind fun i => ?_
    split
    · rename_i v hv
      exact hs.arrays id v (Array.mem_of_getElem? hv)
    · trivial
  · refine comes_bind fun i => ?_
    split <;> trivial
  · trivial
  · trivial

theorem sound_get? (hs : s.Sound d) {f : FrameId} {x : String} {v : Value} (h : s.scopes.get? f x = some v) :
    v.Sound d := by
  obtain ⟨g, -, hg⟩ := Option.bind_eq_some_iff.1 h
  exact hs.scopes g x v hg

/-- A name is bound to a sound value. -/
theorem Store.Sound.define (hs : s.Sound d) (f : FrameId) (x : String) {v : Value} (hv : v.Sound d) :
    (s.mapScopes (Scopes.define · f x v)).Sound d := by
  refine ⟨?_, hs.arrays⟩
  intro g y w hw
  have hw : ((s.scopes.define f x v).slots g).find? y = some w := hw
  rw [Scopes.slots_define] at hw
  split at hw
  · rw [Bindings.find?_put] at hw
    split at hw
    · cases hw
      exact hv
    · exact hs.scopes g y w hw
  · exact hs.scopes g y w hw

theorem Store.Sound.child (hs : s.Sound d) (parent : FrameId) : (s.mapScopes (Scopes.child · parent)).Sound d := by
  refine ⟨?_, hs.arrays⟩
  intro g y w hw
  have hw : ((s.scopes.child parent).slots g).find? y = some w := hw
  rw [Scopes.slots_child] at hw
  exact hs.scopes g y w hw

/-- Parameters are bound to sound values. -/
theorem Store.Sound.bindAll (hs : s.Sound d) (f : FrameId) (entries : List (String × Value))
    (he : ∀ e ∈ entries, e.2.Sound d) :
    (s.mapScopes fun scopes => entries.foldl (fun scopes e => scopes.define f e.1 e.2) scopes).Sound d := by
  induction entries generalizing s with
  | nil => exact hs
  | cons e rest ih => exact ih (hs.define f e.1 (he e (by simp))) fun e' h => he e' (by simp [h])

theorem Store.Sound.newArray (hs : s.Sound d) (items : Array Value) (hi : ∀ v ∈ items, v.Sound d) :
    (s.newArray items).2.Sound d := by
  refine ⟨hs.scopes, ?_⟩
  intro id v hv
  rw [Store.items_push (s := s) rfl] at hv
  split at hv
  · exact hi v hv
  · exact hs.arrays id v hv

/-- The elements of an array are changed into sound ones. -/
theorem Store.Sound.mapItems (hs : s.Sound d) (id : ArrayId) (change : Array Value → Array Value)
    (hc : ∀ v ∈ change (s.items id), v.Sound d) : (s.mapItems id change).Sound d := by
  refine ⟨hs.scopes, ?_⟩
  intro other v hv
  rw [Store.items_modify (s := s) rfl] at hv
  split at hv
  · rename_i he
    rw [← he.1] at hv
    exact hc v hv
  · exact hs.arrays other v hv

theorem sound_writeAt {items : Array Value} {i : Nat} {v w : Value} (hi : ∀ v ∈ items, v.Sound d) (hv : v.Sound d)
    (hw : w ∈ Store.writeAt items i v) : w.Sound d := by
  unfold Store.writeAt at hw
  split at hw
  · rcases Array.mem_or_eq_of_mem_setIfInBounds hw with hw | rfl
    · exact hi w hw
    · exact hv
  · rcases Array.mem_push.1 hw with hw | rfl
    · rcases Array.mem_append.1 hw with hw | hw
      · exact hi w hw
      · rw [(Array.mem_replicate.1 hw).2]
        trivial
    · exact hv

/-! ## Builtins -/

theorem sound_argument {args : List Value} (ha : ∀ v ∈ args, v.Sound d) (i : Nat) :
    (Builtin.argument args i).Sound d := by
  rw [Builtin.argument, List.getD_eq_getElem?_getD]
  cases h : args[i]? with
  | none => trivial
  | some v => exact ha v (List.mem_of_getElem? h)

/-- **A builtin keeps the store sound and answers with a sound value**: it makes no functions. -/
theorem sound_run (hs : s.Sound d) (b : Builtin) {args : List Value} (ha : ∀ v ∈ args, v.Sound d) :
    (b.run args s).1.Brings (Value.Sound d) ∧ (b.run args s).2.Sound d := by
  have hreply : ∀ b : Builtin, b.run args s = (b.reply args s, s) →
      (b.run args s).1.Brings (Value.Sound d) ∧ (b.run args s).2.Sound d := by
    intro b hb
    rw [hb]
    exact ⟨(data_reply b args).mono fun _ => Value.Data.sound, hs⟩
  cases b with
  | random =>
    simp only [Builtin.run, Builtin.randomNumber]
    split
    · exact ⟨trivial, hs⟩
    · split <;> exact ⟨trivial, hs.scopes, hs.arrays⟩
  | split =>
    refine ⟨trivial, hs.newArray _ fun v hv => ?_⟩
    obtain ⟨text, -, rfl⟩ := List.mem_map.1 (List.mem_toArray.1 hv)
    trivial
  | arrayNew =>
    simp only [Builtin.run, Builtin.makeArray]
    split
    · exact ⟨trivial, hs⟩
    · split
      · refine ⟨trivial, hs.newArray _ fun v hv => ?_⟩
        rw [(Array.mem_replicate.1 hv).2]
        trivial
      · exact ⟨trivial, hs⟩
  | arrayPush =>
    simp only [Builtin.run, Builtin.push]
    split
    · rename_i id _
      refine ⟨trivial, hs.mapItems id _ fun v hv => ?_⟩
      rcases Array.mem_push.1 hv with hv | rfl
      · exact hs.arrays id v hv
      · exact sound_argument ha 1
    · exact ⟨trivial, hs⟩
    · exact ⟨trivial, hs⟩
  | arrayPop =>
    simp only [Builtin.run, Builtin.pop]
    split
    · rename_i id _
      refine ⟨?_, hs.mapItems id _ fun v hv => ?_⟩
      · show ((s.items id).back?.getD .null).Sound d
        cases hb : (s.items id).back? with
        | none => trivial
        | some v => exact hs.arrays id v (Array.mem_of_back? hb)
      · have hv : v ∈ (s.items id).toList.dropLast := by
          rw [← Array.toList_pop]
          exact hv.val
        exact hs.arrays id v (Array.mem_toList_iff.1 ((List.dropLast_sublist _).subset hv))
    · exact ⟨trivial, hs⟩
    · exact ⟨trivial, hs⟩
  | _ => exact hreply _ rfl

end Values

/-! ## Taking stock of a machine -/

/-- The statements that a focus is about. -/
def Focus.code : Focus → List Stmt
  | start s | exec s => [s]
  | _ => []

/-- The values that a focus carries. -/
def Focus.values : Focus → List Value
  | apply callee args _ => callee :: args
  | give v | leave v => [v]
  | _ => []

/-- The statements that a piece of pending work has yet to run. -/
def Pending.code : Pending → List Stmt
  | block _ rest | call _ rest | program _ rest => rest
  | choose yes no => yes :: no.toList
  | test _ body | again _ body => [body]
  | _ => []

/-- The values that a piece of pending work keeps. -/
def Pending.values : Pending → List Value
  | combine _ v _ | index v _ | setIndex v _ _ => [v]
  | argument f before _ _ => f :: before
  | item before _ => before
  | setValue v i _ => [v, i]
  | _ => []

/-- The statements that a statement is made of, but for the body of a function. -/
def Stmt.parts : Stmt → List Stmt
  | block body _ => body
  | branch _ yes no _ => yes :: no.toList
  | loop _ body _ => [body]
  | _ => []

/-- A predicate of statements that goes down into them. It comes to what is asked of functions where one is declared, and
back from it to the body of one that is called. -/
structure Goes (d : Demand) (Q : Stmt → Prop) : Prop where
  parts : ∀ {s : Stmt}, Q s → ∀ t ∈ s.parts, Q t
  declares : ∀ {f : Closure} {span : Span}, Q (.function f.name f.params f.body span) → d.closure f
  calls : ∀ {f : Closure}, d.closure f → ∀ s ∈ f.body, Q s

/-- `Q` holds of the statements, and the values are sound. -/
structure Fits (d : Demand) (Q : Stmt → Prop) (code : List Stmt) (values : List Value) : Prop where
  code : ∀ s ∈ code, Q s
  values : ∀ v ∈ values, v.Sound d

section Fits

variable {d : Demand} {Q : Stmt → Prop}

theorem fits_code {code : List Stmt} (h : ∀ s ∈ code, Q s) : Fits d Q code [] := ⟨h, by simp⟩

theorem fits_values {values : List Value} (h : ∀ v ∈ values, v.Sound d) : Fits d Q [] values := ⟨by simp, h⟩

theorem fits_nil : Fits d Q [] [] := fits_code (by simp)

theorem fits_stmt {s : Stmt} (h : Q s) : Fits d Q [s] [] := fits_code (by simpa using h)

theorem fits_value {v : Value} (h : v.Sound d) : Fits d Q [] [v] := fits_values (by simpa using h)

end Fits

namespace Machine

/-- `Q` holds of the code that is pending above `base`, and all values are sound. -/
structure Stocked (d : Demand) (Q : Stmt → Prop) (base : List Pending) (m : Machine) : Prop where
  store : m.store.Sound d
  latest : m.latest.Sound d
  work : ∃ inner, m.pending = inner ++ base ∧ ∀ w ∈ inner, Fits d Q w.code w.values

/-- So it is with the focus as well. -/
structure Coded (d : Demand) (Q : Stmt → Prop) (base : List Pending) (m : Machine) : Prop
    extends Stocked d Q base m where
  focus : Fits d Q m.focus.code m.focus.values

section Operations

variable {d : Demand} {Q : Stmt → Prop} {base : List Pending} {m : Machine}

theorem Stocked.turn (h : Stocked d Q base m) {f : Focus} (hf : Fits d Q f.code f.values) : Coded d Q base (m.turn f) :=
  ⟨⟨h.store, h.latest, h.work⟩, hf⟩

theorem Stocked.push (h : Stocked d Q base m) {f : Focus} {w : Pending} (hf : Fits d Q f.code f.values)
    (hw : Fits d Q w.code w.values) : Coded d Q base (m.push f w) := by
  obtain ⟨inner, hi, hfit⟩ := h.work
  refine ⟨⟨h.store, h.latest, w :: inner, by rw [List.cons_append, ← hi]; rfl, ?_⟩, hf⟩
  intro v hv
  rcases List.mem_cons.1 hv with rfl | hv
  · exact hw
  · exact hfit v hv

/-- Another store that is sound. -/
theorem Coded.withStore (h : Coded d Q base m) {store : Store} (hs : store.Sound d) :
    Coded d Q base { m with store := store } := ⟨⟨hs, h.latest, h.work⟩, h.focus⟩

theorem Stocked.withStore (h : Stocked d Q base m) {store : Store} (hs : store.Sound d) :
    Stocked d Q base { m with store := store } := ⟨hs, h.latest, h.work⟩

theorem Stocked.raise (h : Stocked d Q base m) (span : Span) (f : RuntimeFault) : Coded d Q base (m.raise span f) :=
  h.turn fits_nil

theorem Stocked.settle (h : Stocked d Q base m) (span : Span) {r : Except RuntimeFault Value}
    (hr : Comes (Value.Sound d) r) : Coded d Q base (m.settle span r) := by
  cases r with
  | ok v => exact h.turn (fits_value hr)
  | error f => exact h.raise span f

theorem Stocked.request (h : Stocked d Q base m) (keep : Bool) (span : Span) (prompt : String) :
    Coded d Q base (m.request keep span prompt) := by
  unfold Machine.request
  split
  · exact h.turn fits_nil
  · exact h.push fits_nil fits_nil

theorem Stocked.takeAnswer (h : Stocked d Q base m) (span : Span) {a : Answer} (ha : a.Brings (Value.Sound d)) :
    Coded d Q base (m.takeAnswer span a).1 := by
  cases a with
  | value v => exact h.turn (fits_value ha)
  | write | writeLine | clear => exact h.turn (fits_value trivial)
  | ask prompt => exact h.request true span prompt
  | fault f => exact h.raise span f

theorem Stocked.runBuiltin (h : Stocked d Q base m) (b : Builtin) {args : List Value} (ha : ∀ v ∈ args, v.Sound d)
    (span : Span) : Coded d Q base (m.runBuiltin b args span).1 := by
  obtain ⟨hanswer, hstore⟩ := sound_run h.store b ha
  exact (h.withStore hstore).takeAnswer span hanswer

/-- A variable is given a sound value. -/
theorem Coded.assignVariable (h : Coded d Q base m) (x : String) {v : Value} (hv : v.Sound d) :
    Coded d Q base (m.assignVariable x v) := h.withStore (h.store.define _ x hv)

end Operations

/-! ## One step -/

section Step

variable {d : Demand} {Q : Stmt → Prop} {base : List Pending} {m : Machine}

theorem Stocked.startStatement (h : Stocked d Q base m) {s : Stmt} (hs : Q s) :
    Coded d Q base (m.startStatement s).1 := by
  unfold Machine.startStatement
  split
  · exact h.turn fits_nil
  · split <;> exact h.turn (fits_stmt hs)

/-- A statement is taken apart; a function that is declared has the body of the declaration. -/
theorem Stocked.execStatement (hQ : Goes d Q) (h : Stocked d Q base m) {s : Stmt} (hs : Q s) :
    Coded d Q base (m.execStatement s) := by
  have hparts := hQ.parts hs
  cases s with
  | expr | print | assign => exact h.push fits_nil fits_nil
  | input keyword prompt span =>
    cases prompt with
    | none => exact h.request false span _
    | some e => exact h.push fits_nil fits_nil
  | block body span =>
    exact Stocked.push (m := m.enter m.here) ⟨h.store.child m.here, h.latest, h.work⟩ fits_nil (w := .block m.here body)
      (fits_code hparts)
  | branch condition yes no span =>
    exact h.push fits_nil (w := .choose yes no) (fits_code hparts)
  | loop condition body span =>
    exact h.push fits_nil (w := .test condition body) (fits_code hparts)
  | function x params body span =>
    refine (h.turn (f := .done) fits_nil).withStore ?_
    exact Store.Sound.define (s := (Store.newClosure m.store).2) ⟨h.store.scopes, h.store.arrays⟩ m.here x
      (hQ.declares hs)
  | leave value span =>
    cases value with
    | none => exact h.turn (fits_value trivial)
    | some e => exact h.push fits_nil fits_nil

theorem Stocked.evalExpression (h : Stocked d Q base m) (e : Expr) : Coded d Q base (m.evalExpression e) := by
  cases e with
  | literal value span => exact h.turn (fits_value ((data_ofLiteral value).sound))
  | name x span =>
    simp only [Machine.evalExpression]
    split
    · rename_i v hv
      exact h.turn (fits_value (sound_get? h.store hv))
    · exact h.raise span _
  | group inner span => exact h.turn fits_nil
  | array items span =>
    cases items with
    | nil => exact (h.withStore (h.store.newArray #[] (by simp))).turn (fits_value trivial)
    | cons e rest => exact h.push fits_nil fits_nil
  | assign | binary | logical | unary | call | property | element | setProperty | setElement =>
    exact h.push fits_nil fits_nil

/-- A call runs the body of its function. -/
theorem Stocked.applyValue (hQ : Goes d Q) (h : Stocked d Q base m) {callee : Value} {args : List Value}
    (hc : callee.Sound d) (ha : ∀ v ∈ args, v.Sound d) (span : Span) :
    Coded d Q base (m.applyValue callee args span).1 := by
  unfold Machine.applyValue
  split
  · split
    · split
      · exact h.runBuiltin _ ha span
      · exact h.raise span _
    · exact h.runBuiltin _ ha span
  · rename_i f
    split
    · exact h.raise span _
    · split
      · exact h.raise span _
      · have hcall : Fits d Q (Pending.call m.here f.body).code [] := fits_code (hQ.calls hc)
        have hstore := (h.store.child f.home).bindAll m.store.scopes.size (f.params.zip args) ?_
        · exact ⟨⟨hstore, h.latest, ((h.push (f := .done) fits_nil (w := .call m.here f.body) hcall).work)⟩, fits_nil⟩
        · intro e he
          exact ha e.2 (List.of_mem_zip he).2
  · exact h.raise span _

/-- A sound value is handed to pending work. -/
theorem Stocked.takeValue (h : Stocked d Q base m) {v : Value} (hv : v.Sound d) {w : Pending}
    (hw : Fits d Q w.code w.values) : Coded d Q base (m.takeValue v w).1 := by
  obtain ⟨hcode, hvalues⟩ := hw
  cases w with
  | discard =>
    simp only [Machine.takeValue]
    split
    · exact ⟨⟨h.store, hv, h.work⟩, fits_nil⟩
    · exact h.turn fits_nil
  | write newline => cases newline <;> exact h.turn fits_nil
  | prompt span => exact h.request false span _
  | bind x => exact (h.turn (f := .done) fits_nil).assignVariable x hv
  | assign x => exact (h.turn (fits_value hv)).assignVariable x hv
  | choose yes no =>
    simp only [Machine.takeValue]
    split
    · exact h.turn (fits_stmt (hcode yes (by simp [Pending.code])))
    · split
      · rename_i s
        exact h.turn (fits_stmt (hcode s (by simp [Pending.code])))
      · exact h.turn fits_nil
  | test condition body =>
    simp only [Machine.takeValue]
    split
    · exact h.push (fits_stmt (hcode body (by simp [Pending.code]))) (w := .again condition body) (fits_code hcode)
    · exact h.turn fits_nil
  | returning => exact h.turn (fits_value hv)
  | right op right span => exact h.push fits_nil (w := .combine op v span) (fits_value hv)
  | combine op left span => exact h.settle span (Comes.sound (data_binary op left v))
  | logical op right =>
    simp only [Machine.takeValue]
    split
    · exact h.turn (fits_value hv)
    · exact h.turn fits_nil
  | unary op span => exact h.settle span (Comes.sound (data_unary op v))
  | callee args span =>
    cases args with
    | nil => exact h.turn (fits_value hv)
    | cons e rest => exact h.push fits_nil (w := .argument v [] rest span) (fits_value hv)
  | argument f before rest span =>
    obtain ⟨hf, hbefore⟩ := List.forall_mem_cons.1 hvalues
    have hall : ∀ u ∈ f :: v :: before, u.Sound d :=
      List.forall_mem_cons.2 ⟨hf, List.forall_mem_cons.2 ⟨hv, hbefore⟩⟩
    cases rest with
    | nil => exact h.turn (fits_values fun u hu => hall u (by simpa [Focus.values, or_comm] using hu))
    | cons e rest => exact h.push fits_nil (w := .argument f (v :: before) rest span) (fits_values hall)
  | item before rest =>
    have hall : ∀ u ∈ v :: before, u.Sound d := List.forall_mem_cons.2 ⟨hv, hvalues⟩
    cases rest with
    | nil =>
      refine (h.withStore (h.store.newArray (v :: before).reverse.toArray ?_)).turn (fits_value trivial)
      intro u hu
      exact hall u (List.mem_reverse.1 (List.mem_toArray.1 hu))
    | cons e rest => exact h.push fits_nil (w := .item (v :: before) rest) (fits_values hall)
  | property x span => exact h.settle span (Comes.sound (data_readProperty v x))
  | object index span => exact h.push fits_nil (w := .index v span) (fits_value hv)
  | index object span => exact h.settle span (comes_readElement h.store object v)
  | setProperty x span => cases v <;> exact h.raise span _
  | setObject index value span =>
    simp only [Machine.takeValue]
    split
    · exact h.raise span _
    · exact h.push fits_nil (w := .setIndex _ value span) (fits_value hv)
  | setIndex object value span =>
    have hobject : object.Sound d := hvalues object (by simp [Pending.values])
    have hboth : ∀ u ∈ [object, v], u.Sound d := by simp [hobject, hv]
    exact h.push fits_nil (w := .setValue object v span) (fits_values hboth)
  | setValue object index span =>
    simp only [Machine.takeValue]
    split
    · rename_i id i _
      refine (h.turn (fits_value hv)).withStore (h.store.mapItems id _ fun u hu => ?_)
      exact sound_writeAt (h.store.arrays id) hv hu
    · exact h.raise span _
  | reply | block | again | call | program => exact h.turn (fits_value hv)

theorem Coded.afterStatement (h : Coded d Q base m) {w : Pending} (hw : Fits d Q w.code w.values) :
    Coded d Q base (m.afterStatement w) := by
  obtain ⟨hcode, -⟩ := hw
  cases w with
  | block outer rest =>
    cases rest with
    | nil => exact ⟨⟨h.store, h.latest, h.work⟩, h.focus⟩
    | cons s rest =>
      exact h.toStocked.push (fits_stmt (hcode s (by simp [Pending.code]))) (w := .block outer rest)
        (fits_code fun t ht => hcode t (List.mem_cons_of_mem s ht))
  | call outer rest =>
    cases rest with
    | nil => exact ⟨⟨h.store, h.latest, h.work⟩, fits_value trivial⟩
    | cons s rest =>
      exact h.toStocked.push (fits_stmt (hcode s (by simp [Pending.code]))) (w := .call outer rest)
        (fits_code fun t ht => hcode t (List.mem_cons_of_mem s ht))
  | again condition body => exact h.toStocked.push fits_nil (w := .test condition body) (fits_code hcode)
  | program index rest =>
    cases rest with
    | nil => exact ⟨⟨h.store, trivial, h.work⟩, fits_value h.latest⟩
    | cons s rest =>
      have := h.toStocked.push (f := .start s) (fits_stmt (hcode s (by simp [Pending.code])))
        (w := .program (index + 1) rest)
        (fits_code fun t ht => hcode t (List.mem_cons_of_mem s ht))
      exact ⟨⟨this.store, this.latest, this.work⟩, this.focus⟩
  | _ => exact h

theorem Coded.leaveThrough (h : Coded d Q base m) {v : Value} (hv : v.Sound d) (w : Pending) :
    Coded d Q base (m.leaveThrough v w) := by
  cases w with
  | block outer rest => exact ⟨⟨h.store, h.latest, h.work⟩, h.focus⟩
  | call outer rest => exact ⟨⟨h.store, h.latest, h.work⟩, fits_value hv⟩
  | program index rest => exact ⟨⟨h.store, trivial, h.work⟩, fits_value h.latest⟩
  | _ => exact h

theorem Coded.failThrough (h : Coded d Q base m) (w : Pending) : Coded d Q base (m.failThrough w) := by
  cases w <;> exact ⟨⟨h.store, h.latest, h.work⟩, h.focus⟩

/-- The innermost piece of pending work above the base, and the machine without it. -/
theorem Coded.pop (h : Coded d Q base m) (ha : Above base m) (hd : m.focus.isDue = true) {w : Pending}
    {rest : List Pending} (hp : m.pending = w :: rest) :
    Fits d Q w.code w.values ∧ Coded d Q base { m with pending := rest } := by
  obtain ⟨inner, hi, hfit⟩ := h.work
  obtain ⟨more, rfl, rfl⟩ := ha.top hi hd hp
  exact ⟨hfit w (by simp), ⟨h.store, h.latest, more, rfl, fun v hv => hfit v (by simp [hv])⟩, h.focus⟩

/-- **One step takes code apart and makes none.** -/
theorem Coded.step (hQ : Goes d Q) (h : Coded d Q base m) (ha : Above base m) : Coded d Q base m.step.1 := by
  have hcode := h.focus.code
  have hvalues := h.focus.values
  cases hm : m.focus with
  | start s =>
    rw [hm] at hcode
    simp only [Machine.step, hm]
    exact h.toStocked.startStatement (hcode s (by simp [Focus.code]))
  | exec s =>
    rw [hm] at hcode
    simp only [Machine.step, hm]
    exact h.toStocked.execStatement hQ (hcode s (by simp [Focus.code]))
  | eval e =>
    simp only [Machine.step, hm]
    exact h.toStocked.evalExpression e
  | apply callee args span =>
    rw [hm] at hvalues
    simp only [Machine.step, hm]
    exact h.toStocked.applyValue hQ (hvalues callee (by simp [Focus.values]))
      (fun v hv => hvalues v (by simp [Focus.values, hv])) span
  | await prompt =>
    simp only [Machine.step, hm]
    exact h
  | give v =>
    cases hp : m.pending with
    | nil =>
      simp only [Machine.step, hm, hp]
      exact h
    | cons w rest =>
      obtain ⟨hw, hr⟩ := h.pop ha (by rw [hm]; rfl) hp
      rw [hm] at hvalues
      rw [step_give hm hp]
      exact hr.toStocked.takeValue (hvalues v (by simp [Focus.values])) hw
  | done =>
    cases hp : m.pending with
    | nil =>
      simp only [Machine.step, hm, hp]
      exact h
    | cons w rest =>
      obtain ⟨hw, hr⟩ := h.pop ha (by rw [hm]; rfl) hp
      rw [step_done hm hp]
      exact hr.afterStatement hw
  | leave v =>
    cases hp : m.pending with
    | nil =>
      simp only [Machine.step, hm, hp]
      exact h
    | cons w rest =>
      obtain ⟨hw, hr⟩ := h.pop ha (by rw [hm]; rfl) hp
      rw [hm] at hvalues
      rw [step_leave hm hp]
      exact hr.leaveThrough (hvalues v (by simp [Focus.values])) w
  | fail d =>
    cases hp : m.pending with
    | nil =>
      simp only [Machine.step, hm, hp]
      exact h
    | cons w rest =>
      obtain ⟨hw, hr⟩ := h.pop ha (by rw [hm]; rfl) hp
      rw [step_fail hm hp]
      exact hr.failThrough w

/-- A line that is read is text, and a cancelled read is a failure. -/
theorem Coded.answer (h : Coded d Q base m) (ha : Above base m) (reply : Reply) : Coded d Q base (m.answer reply) := by
  unfold Machine.answer
  split
  · rename_i keep span rest hm hp
    obtain ⟨-, hr⟩ := h.pop ha (by rw [hm]; rfl) hp
    cases reply with
    | line text =>
      dsimp only
      split
      · exact hr.toStocked.turn (fits_value trivial)
      · exact hr.toStocked.turn fits_nil
    | cancelled =>
      dsimp only
      split <;> exact hr.toStocked.turn fits_nil
  · exact h

/-- A decision of an observer makes a failure at most. -/
theorem Coded.heed (h : Coded d Q base m) (v : Verdict) : Coded d Q base (m.heed v) := by
  refine ⟨⟨?_, ?_, ?_⟩, ?_⟩
  · rw [store_heed]
    exact h.store
  · rw [latest_heed]
    exact h.latest
  · rw [pending_heed]
    exact h.work
  · rcases focus_heed m v with hf | ⟨e, hf⟩
    · rw [hf]
      exact h.focus
    · rw [hf]
      exact fits_nil

end Step

/-! ## Moves and programs -/

section Moves

variable {d : Demand} {Q : Stmt → Prop} {m m' : Machine} {xs : List Shown}

/-- **A move takes code apart and makes none.** -/
theorem Coded.move (hQ : Goes d Q) (h : Coded d Q [] m) (hm : Move m xs m') : Coded d Q [] m' := by
  have hstep := h.step hQ above_nil
  cases hm with
  | step hs =>
    rw [hs] at hstep
    exact hstep
  | event v hs =>
    rw [hs] at hstep
    exact hstep.heed v
  | answer r _ => exact h.answer above_nil r
  | flag stopped => exact ⟨⟨h.store, h.latest, h.work⟩, h.focus⟩

theorem Coded.carried (hQ : Goes d Q) (hc : Carried [] m xs m') (h : Coded d Q [] m) : Coded d Q [] m' := by
  induction hc with
  | refl => exact h
  | move _ hm _ ih => exact ih (h.move hQ hm)

/-- A program sets out with its own code. -/
theorem Coded.begin (h : Coded d Q [] m) {p : Program} (hp : ∀ s ∈ p, Q s) : Coded d Q [] (m.begin p) := by
  refine ⟨⟨h.store, trivial, [.program 0 p], rfl, ?_⟩, fits_nil⟩
  intro w hw
  rw [List.mem_singleton.1 hw]
  exact fits_code hp

end Moves

end Machine

/-- Registered builtins are as asked if the registry has no others. -/
theorem sound_install {d : Demand} {registry : Registry} (random : Random)
    (hr : ∀ x f, registry.find? x = some (.native f) → d.native f) :
    ((Store.initial random).mapScopes (registry.install · Store.globals)).Sound d := by
  refine ⟨fun f x v hv => ?_, fun id v hv => by cases hv.val⟩
  obtain ⟨r, hx, rfl⟩ := exists_registration hv
  cases r with
  | native f => exact hr x f hx
  | constant c => trivial

end StepScript
