import StepScript.Machine.Operators

/-!
# Plain values

A value refers to a place in the store if it is an array, or a function with the frame that it was declared in; all
other values are plain. Operators, properties and the builtins that leave the store alone answer with data
(`data_binary`, `data_unary`, `data_readProperty`, `data_reply`): they hand on no function and no array. So their answers
are plain (`plainly_binary`, `plain_reply` and so on).
-/

namespace StepScript

/-- A place in the store. -/
inductive Location where
  | frame (f : FrameId)
  | array (id : ArrayId)
deriving DecidableEq

/-- The place that a value refers to. -/
def Value.location? : Value → Option Location
  | array id => some (.array id)
  | closure f => some (.frame f.home)
  | _ => none

/-- A value that refers to no place. -/
def Value.Plain (v : Value) : Prop := v.location? = none

/-- A computation that comes to a plain value, or to none. -/
def Plainly : Except RuntimeFault Value → Prop
  | .ok v => v.Plain
  | .error _ => True

/-- If an answer is a value, it is plain. -/
def Answer.Plain : Answer → Prop
  | .value v => v.Plain
  | _ => True

/-- A value that is no array and no function, not a builtin one either. -/
def Value.Data : Value → Prop
  | null | boolean _ | number _ | text _ => True
  | _ => False

/-- A computation that comes to a value as `P` says, or to none. -/
def Comes (P : Value → Prop) : Except RuntimeFault Value → Prop
  | .ok v => P v
  | .error _ => True

/-- If an answer is a value, it is as `P` says. -/
def Answer.Brings (P : Value → Prop) : Answer → Prop
  | .value v => P v
  | _ => True

section Comes

variable {P P' : Value → Prop}

theorem Comes.mono {x : Except RuntimeFault Value} (h : Comes P x) (hP : ∀ v, P v → P' v) : Comes P' x := by
  cases x with
  | ok v => exact hP v h
  | error f => trivial

theorem Answer.Brings.mono {a : Answer} (h : a.Brings P) (hP : ∀ v, P v → P' v) : a.Brings P' := by
  cases a with
  | value v => exact hP v h
  | _ => trivial

theorem comes_bind {α : Type} {x : Except RuntimeFault α} {f : α → Except RuntimeFault Value}
    (h : ∀ a, Comes P (f a)) : Comes P (x >>= f) := by
  cases x with
  | error e => trivial
  | ok a => exact h a

theorem brings_ofExcept {x : Except RuntimeFault Value} (h : Comes P x) : (Answer.ofExcept x).Brings P := by
  cases x with
  | ok v => exact h
  | error f => trivial

end Comes

theorem Value.Data.plain {v : Value} (h : v.Data) : v.Plain := by
  cases v with
  | array | closure => exact h.elim
  | _ => rfl

theorem Comes.plainly {x : Except RuntimeFault Value} (h : Comes Value.Data x) : Plainly x := by
  cases x with
  | ok v => exact Value.Data.plain h
  | error f => trivial

theorem data_ofLiteral (l : Literal) : (Value.ofLiteral l).Data := by
  cases l <;> trivial

theorem plain_ofLiteral (l : Literal) : (Value.ofLiteral l).Plain := (data_ofLiteral l).plain

section Operators

variable {s : Store}

theorem data_binary (op : BinaryOp) (left right : Value) : Comes Value.Data (op.apply s left right) := by
  have hnum : ∀ f : Float → Float → Value, (∀ x y, (f x y).Data) → Comes Value.Data (numeric f left right) := by
    intro f hf
    unfold numeric
    split
    · exact hf _ _
    · trivial
  cases op with
  | add =>
    simp only [BinaryOp.apply, addValues]
    split <;> trivial
  | divide =>
    simp only [BinaryOp.apply, divideValues]
    split
    · split <;> trivial
    · trivial
  | equal | notEqual => trivial
  | subtract | multiply | less | lessEqual | greater | greaterEqual => exact hnum _ fun _ _ => trivial

theorem plainly_binary (op : BinaryOp) (left right : Value) : Plainly (op.apply s left right) :=
  (data_binary op left right).plainly

theorem data_unary (op : UnaryOp) (operand : Value) : Comes Value.Data (op.apply s operand) := by
  unfold UnaryOp.apply
  split <;> trivial

theorem plainly_unary (op : UnaryOp) (operand : Value) : Plainly (op.apply s operand) :=
  (data_unary op operand).plainly

theorem data_readProperty (object : Value) (name : String) : Comes Value.Data (readProperty s object name) := by
  unfold readProperty
  split
  · trivial
  · split <;> trivial
  · split <;> trivial
  · trivial

theorem plainly_readProperty (object : Value) (name : String) : Plainly (readProperty s object name) :=
  (data_readProperty object name).plainly

/-- **A builtin that leaves the store alone answers with data.** -/
theorem data_reply (b : Builtin) (args : List Value) : (b.reply args s).Brings Value.Data := by
  cases b with
  | print | printLine | clearScreen => trivial
  | input =>
    simp only [Builtin.reply]
    split <;> trivial
  | abs | round | floor | ceil | sin | cos | tan => exact brings_ofExcept (comes_bind fun x => trivial)
  | sqrt =>
    refine brings_ofExcept (comes_bind fun x => ?_)
    split <;> trivial
  | pow => exact brings_ofExcept (comes_bind fun x => comes_bind fun y => trivial)
  | least | greatest => exact brings_ofExcept (comes_bind fun _ => comes_bind fun x => comes_bind fun y => trivial)
  | length =>
    refine brings_ofExcept ?_
    unfold Builtin.lengthOf
    split <;> trivial
  | substring =>
    refine brings_ofExcept (comes_bind fun _ => comes_bind fun start => ?_)
    dsimp only
    split <;> exact comes_bind fun stop => trivial
  | copies =>
    refine brings_ofExcept (comes_bind fun count => ?_)
    split
    · trivial
    · dsimp only
      split
      · trivial
      · split <;> trivial
  | padLeft | padRight => exact brings_ofExcept (comes_bind fun x => trivial)
  | parseInt =>
    refine brings_ofExcept (comes_bind fun _ => ?_)
    dsimp only
    split <;> exact comes_bind fun radix => by split <;> trivial
  | _ => trivial

theorem plain_reply (b : Builtin) (args : List Value) : (b.reply args s).Plain := by
  have h := data_reply (s := s) b args
  cases hr : b.reply args s with
  | value v =>
    rw [hr] at h
    exact Value.Data.plain h
  | _ => trivial

end Operators

/-! ## Registered names -/

/-- At first the global frame binds the registered names, and there is no other frame. -/
theorem find?_installed (registry : Registry) (f : FrameId) (x : String) :
    ((registry.install .root Store.globals).slots f).find? x =
      if f = Store.globals then (registry.find? x).map Registration.value else none := by
  have hroot : (Scopes.root.slots f).find? x = none := by cases f <;> rfl
  rw [Registry.find?_install, hroot, Option.or_none]
  by_cases hf : f = Store.globals
  · rw [if_pos hf, if_pos ⟨hf.symm, hf ▸ Nat.zero_lt_one⟩]
  · rw [if_neg hf, if_neg fun h => hf h.1.symm]

theorem get?_installed (registry : Registry) (x : String) :
    (registry.install .root Store.globals).get? Store.globals x = (registry.find? x).map Registration.value := by
  rw [Scopes.get?_eq, find?_installed, if_pos rfl, Registry.enclosing?_install]
  exact Option.or_none

/-- What a name is bound to at first is the value of a registration. -/
theorem exists_registration {registry : Registry} {f : FrameId} {x : String} {v : Value}
    (h : ((registry.install .root Store.globals).slots f).find? x = some v) :
    ∃ r, registry.find? x = some r ∧ r.value = v := by
  rw [find?_installed] at h
  split at h
  · exact Option.map_eq_some_iff.1 h
  · cases h

/-- Registered names are bound to plain values, in the frame that they are installed in; the frames stay as they are. -/
theorem plain_install (registry : Registry) (random : Random) :
    let s := (Store.initial random).mapScopes (registry.install · Store.globals)
    s.scopes.size = 1 ∧ s.scopes.enclosing? Store.globals = none ∧
      ∀ f x v, (s.scopes.slots f).find? x = some v → v.Plain := by
  refine ⟨Registry.size_install registry .root Store.globals, Registry.enclosing?_install registry .root _ _, ?_⟩
  intro f x v hv
  obtain ⟨r, -, rfl⟩ := exists_registration hv
  cases r <;> rfl

end StepScript
