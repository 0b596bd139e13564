import StepScript.Proofs.Machine.Regions

/-!
# The frames of functions cannot be told apart

A function carries the frame that it was declared in. Nothing that operators, elements and builtins do depends on the
number of that frame: with the frames renamed, in what they are given and in the arrays, they come to the same, with the
frames renamed (`readElement_rename`, `run_rename`).

* `Value.rename`, `Focus.rename` and `Pending.rename` rename the frames of the functions among the values.
* `Store.Renames r s' s` says that `s` holds in its arrays what `s'` holds, with the frames renamed by `r`.
-/

namespace StepScript

/-- The value with the frame of a function renamed. -/
def Value.rename (r : FrameId → FrameId) : Value → Value
  | .closure f => .closure { f with home := r f.home }
  | v => v

/-- The focus with the frames of its functions renamed. -/
def Focus.rename (r : FrameId → FrameId) : Focus → Focus
  | .apply callee args span => .apply (callee.rename r) (args.map (Value.rename r)) span
  | .give v => .give (v.rename r)
  | .leave v => .leave (v.rename r)
  | f => f

/-- The pending work with the frames of its functions renamed. -/
def Pending.rename (r : FrameId → FrameId) : Pending → Pending
  | .combine op left span => .combine op (left.rename r) span
  | .argument f before rest span => .argument (f.rename r) (before.map (Value.rename r)) rest span
  | .item before rest => .item (before.map (Value.rename r)) rest
  | .index v span => .index (v.rename r) span
  | .setIndex v e span => .setIndex (v.rename r) e span
  | .setValue v i span => .setValue (v.rename r) (i.rename r) span
  | w => w

/-- The answer with the frame of a function renamed. -/
def Answer.rename (r : FrameId → FrameId) : Answer → Answer
  | .value v => .value (v.rename r)
  | a => a

/-- The second store has in its arrays what the first has, with frames renamed, and has made as many functions and drawn
as many random numbers. -/
structure Store.Renames (r : FrameId → FrameId) (s' s : Store) : Prop where
  arrays : s.arrays = s'.arrays.map (Array.map (Value.rename r))
  closures : s.closures = s'.closures
  random : s.random = s'.random

/-! ## Values -/

section Values

variable {r q : FrameId → FrameId} {v w : Value}

theorem Value.rename_id (v : Value) : v.rename id = v := by
  cases v <;> rfl

@[simp] theorem rename_array (id : ArrayId) : (Value.array id).rename r = .array id := rfl

@[simp] theorem rename_text (t : String) : (Value.text t).rename r = .text t := rfl

/-- A value that refers to no frame stays as it is. -/
theorem Value.Plain.rename (h : v.Plain) : v.rename r = v := by
  cases v with
  | closure f => cases h
  | _ => rfl

/-- Two renamings that agree on the frame of a function. -/
theorem Value.rename_congr (h : ∀ f, v.location? = some (.frame f) → r f = q f) : v.rename r = v.rename q := by
  cases v with
  | closure f => rw [Value.rename, Value.rename, h f.home rfl]
  | _ => rfl

theorem Pending.rename_congr {w : Pending} (h : ∀ v ∈ w.values, v.rename r = v.rename q) :
    w.rename r = w.rename q := by
  cases w with
  | combine _ v _ | index v _ | setIndex v _ _ =>
    rw [Pending.rename, Pending.rename, h v (List.mem_singleton_self v)]
  | argument f before rest span =>
    obtain ⟨hf, hbefore⟩ := List.forall_mem_cons.1 h
    rw [Pending.rename, Pending.rename, hf, List.map_congr_left hbefore]
  | item before rest =>
    have hbefore : ∀ v ∈ before, v.rename r = v.rename q := h
    rw [Pending.rename, Pending.rename, List.map_congr_left hbefore]
  | setValue v i span =>
    obtain ⟨hv, hi⟩ := List.forall_mem_cons.1 h
    rw [Pending.rename, Pending.rename, hv, hi i (List.mem_singleton_self i)]
  | _ => rfl

@[simp] theorem kind_rename (v : Value) : (v.rename r).kind = v.kind := by
  cases v <;> rfl

@[simp] theorem same_rename (v w : Value) : (v.rename r).same (w.rename r) = v.same w := by
  cases v <;> cases w <;> rfl

@[simp] theorem placeOf_rename (v : Value) : placeOf (v.rename r) = placeOf v := by
  cases v <;> rfl

@[simp] theorem writePlace_rename (object index : Value) :
    writePlace (object.rename r) (index.rename r) = writePlace object index := by
  cases object with
  | array id => simp only [rename_array, writePlace, placeOf_rename]
  | _ => rfl

end Values

/-! ## Elements and operators -/

section Operators

variable {r : FrameId → FrameId} {s' s : Store}

theorem Store.Renames.items (h : s'.Renames r s) (id : ArrayId) : s.items id = (s'.items id).map (Value.rename r) := by
  unfold Store.items
  rw [h.arrays, Array.getElem?_map]
  cases s'.arrays[id]? with
  | none => simp
  | some items => rfl

/-- What a value is shown as does not depend on the frames of functions. -/
theorem showIn_rename (h : s'.Renames r s) (room : Nat) (opened : List ArrayId) (v : Value) :
    (v.rename r).showIn s room opened = v.showIn s' room opened := by
  induction room generalizing opened v with
  | zero => cases v <;> rfl
  | succ room ih =>
    cases v with
    | array id =>
      have hitems : (s.items id).toList.map (Value.showIn s room (id :: opened)) =
          (s'.items id).toList.map (Value.showIn s' room (id :: opened)) := by
        rw [h.items, Array.toList_map, List.map_map]
        exact List.map_congr_left fun v _ => ih (id :: opened) v
      simp only [rename_array, Value.showIn, hitems]
    | _ => rfl

theorem display_rename (h : s'.Renames r s) (v : Value) : (v.rename r).display s = v.display s' :=
  showIn_rename h _ _ v

theorem truthy_rename (h : s'.Renames r s) (v : Value) : (v.rename r).truthy s = v.truthy s' := by
  cases v with
  | array id => simp only [rename_array, Value.truthy, h.items, Array.size_map]
  | _ => rfl

theorem settles_rename (h : s'.Renames r s) (op : LogicalOp) (v : Value) :
    op.settles s (v.rename r) = op.settles s' v := by
  cases op <;> simp only [LogicalOp.settles, truthy_rename h]

theorem binary_rename (h : s'.Renames r s) (op : BinaryOp) (v w : Value) :
    op.apply s (v.rename r) (w.rename r) = op.apply s' v w := by
  have hnum : ∀ f : Float → Float → Value, numeric f (v.rename r) (w.rename r) = numeric f v w := by
    intro f
    cases v <;> cases w <;> rfl
  cases op with
  | add =>
    have hv := display_rename h v
    have hw := display_rename h w
    cases v <;> cases w <;> simp_all [Value.rename, BinaryOp.apply, addValues, Value.kind]
  | divide => cases v <;> cases w <;> rfl
  | equal | notEqual => simp only [BinaryOp.apply, same_rename]
  | subtract | multiply | less | lessEqual | greater | greaterEqual => exact hnum _

theorem unary_rename (h : s'.Renames r s) (op : UnaryOp) (v : Value) :
    op.apply s (v.rename r) = op.apply s' v := by
  cases op with
  | negate => cases v <;> rfl
  | not => simp only [UnaryOp.apply, truthy_rename h]

theorem readProperty_rename (h : s'.Renames r s) (v : Value) (x : String) :
    readProperty s (v.rename r) x = readProperty s' v x := by
  cases v with
  | array id => simp only [rename_array, readProperty, h.items, Array.size_map]
  | _ => rfl

/-- **An element that is read is the same, with its frame renamed.** -/
theorem readElement_rename (h : s'.Renames r s) (object index : Value) :
    readElement s (object.rename r) (index.rename r) = (readElement s' object index).map (Value.rename r) := by
  cases object with
  | array id =>
    simp only [rename_array, readElement, placeOf_rename, h.items, Array.getElem?_map, display_rename h]
    cases placeOf index with
    | error f => rfl
    | ok i => cases hi : (s'.items id)[i]? <;> simp [bind, Except.bind, hi, Except.map, pure, Except.pure]
  | text t =>
    simp only [rename_text, readElement, placeOf_rename, display_rename h]
    cases placeOf index with
    | error f => rfl
    | ok i => cases hi : t.toList[i]? <;> simp [bind, Except.bind, hi, Except.map, pure, Except.pure]
  | _ => rfl

end Operators

/-! ## Changes of arrays -/

section Arrays

variable {r : FrameId → FrameId} {s' s : Store}

theorem writeAt_rename (items : Array Value) (i : Nat) (v : Value) :
    Store.writeAt (items.map (Value.rename r)) i (v.rename r) = (Store.writeAt items i v).map (Value.rename r) := by
  unfold Store.writeAt
  rw [Array.size_map]
  split
  · rw [Array.map_setIfInBounds]
  · rw [Array.map_push, Array.map_append, Array.map_replicate]
    rfl

/-- A change of elements that does not look at the frames of functions. -/
theorem Store.Renames.mapItems (h : s'.Renames r s) (id : ArrayId) {change' change : Array Value → Array Value}
    (hc : ∀ items, change (items.map (Value.rename r)) = (change' items).map (Value.rename r)) :
    (s'.mapItems id change').Renames r (s.mapItems id change) := by
  refine ⟨?_, h.closures, h.random⟩
  show s.arrays.modify id change = (s'.arrays.modify id change').map _
  rw [h.arrays]
  refine Array.ext_getElem? fun i => ?_
  rw [Array.getElem?_modify, Array.getElem?_map, Array.getElem?_map, Array.getElem?_modify]
  by_cases hi : id = i
  · rw [if_pos hi, if_pos hi, Option.map_map, Option.map_map]
    exact congrArg (Option.map · _) (funext hc)
  · rw [if_neg hi, if_neg hi]

/-- A new array gets the same place. -/
theorem Store.Renames.newArray (h : s'.Renames r s) (items : Array Value) :
    (s.newArray (items.map (Value.rename r))).1 = (s'.newArray items).1 ∧
      (s'.newArray items).2.Renames r (s.newArray (items.map (Value.rename r))).2 := by
  refine ⟨?_, ?_, h.closures, h.random⟩
  · show Value.array s.arrays.size = .array s'.arrays.size
    rw [h.arrays, Array.size_map]
  · show s.arrays.push _ = (s'.arrays.push items).map _
    rw [h.arrays, Array.map_push]

end Arrays

/-! ## Builtins -/

namespace Builtin

variable {r : FrameId → FrameId} {s' s : Store}

@[simp] theorem argument_rename (args : List Value) (i : Nat) :
    argument (args.map (Value.rename r)) i = (argument args i).rename r := by
  simp only [argument, List.getD_eq_getElem?_getD, List.getElem?_map]
  cases args[i]? <;> rfl

theorem textArgument_rename (h : s'.Renames r s) (args : List Value) (i : Nat) :
    textArgument s (args.map (Value.rename r)) i = textArgument s' args i := by
  simp only [textArgument, List.getElem?_map]
  cases args[i]? with
  | none => rfl
  | some v => exact display_rename h v

@[simp] theorem numberArgument_rename (b : Builtin) (args : List Value) (i : Nat) :
    numberArgument b (args.map (Value.rename r)) i = numberArgument b args i := by
  simp only [numberArgument, List.getElem?_map]
  cases args[i]? with
  | none => rfl
  | some v => cases v <;> rfl

@[simp] theorem integerArgument_rename (b : Builtin) (args : List Value) (i : Nat) :
    integerArgument b (args.map (Value.rename r)) i = integerArgument b args i := by
  rw [integerArgument, numberArgument_rename, integerArgument]

@[simp] theorem checkCount_rename (b : Builtin) (args : List Value) (count : Count) :
    checkCount b (args.map (Value.rename r)) count = checkCount b args count := by
  rw [checkCount, List.length_map, checkCount]

theorem promptOf_rename (h : s'.Renames r s) (args : List Value) :
    promptOf s (args.map (Value.rename r)) = promptOf s' args := by
  simp only [promptOf, checkCount_rename]
  cases args with
  | nil => rfl
  | cons v rest =>
    cases v with
    | array id => simp only [List.map_cons, rename_array, ← display_rename h]
    | text t =>
      refine congrArg (_ >>= ·) (funext fun _ => ?_)
      have ht : (Value.text t).display s = (Value.text t).display s' := rfl
      simp only [List.map_cons, rename_text]
      split <;> split <;> simp_all
    | _ => rfl

theorem extremumFrom_rename (b : Builtin) (pick : Float → Float → Float) (best : Float) (args : List Value) :
    extremumFrom b pick best (args.map (Value.rename r)) = extremumFrom b pick best args := by
  induction args generalizing best with
  | nil => rfl
  | cons v rest ih =>
    cases v with
    | number x => exact ih _
    | _ => rfl

theorem substringOf_rename (h : s'.Renames r s) (args : List Value) :
    substringOf s (args.map (Value.rename r)) = substringOf s' args := by
  simp only [substringOf, checkCount_rename, numberArgument_rename, textArgument_rename h, List.getElem?_map]
  cases args[2]? with
  | none => rfl
  | some v => cases v <;> rfl

theorem integerOf_rename (h : s'.Renames r s) (args : List Value) :
    integerOf s (args.map (Value.rename r)) = integerOf s' args := by
  simp only [integerOf, checkCount_rename, integerArgument_rename, textArgument_rename h, List.getElem?_map]
  cases args[1]? with
  | none => rfl
  | some v => cases v <;> rfl

theorem padding_rename (h : s'.Renames r s) (b : Builtin) (args : List Value) :
    padding b s (args.map (Value.rename r)) = padding b s' args := by
  simp only [padding, checkCount_rename, integerArgument_rename, textArgument_rename h, List.length_map]

theorem sizeOf_rename (h : s'.Renames r s) (v : Value) : sizeOf s (v.rename r) = sizeOf s' v := by
  cases v with
  | array id => simp only [rename_array, sizeOf, h.items, Array.size_map]
  | _ => rfl

theorem lengthOf_rename (v : Value) : lengthOf (v.rename r) = lengthOf v := by
  cases v <;> rfl

/-- A builtin that leaves the store alone answers the same. -/
theorem reply_rename (h : s'.Renames r s) (b : Builtin) (args : List Value) :
    b.reply (args.map (Value.rename r)) s = b.reply args s' := by
  cases b with
  | input => simp only [reply, promptOf_rename h]
  | abs | round | floor | ceil | sin | cos | tan => simp only [reply, unary, numberArgument_rename]
  | sqrt => simp only [reply, squareRoot, numberArgument_rename]
  | pow => simp only [reply, power, numberArgument_rename]
  | least | greatest =>
    simp only [reply, extremum, checkCount_rename, numberArgument_rename, ← List.map_drop, extremumFrom_rename]
  | length => simp only [reply, argument_rename, lengthOf_rename]
  | substring => simp only [reply, substringOf_rename h]
  | copies => simp only [reply, repeated, integerArgument_rename, textArgument_rename h]
  | padLeft => simp only [reply, paddedLeft, padding_rename h]
  | padRight => simp only [reply, paddedRight, padding_rename h]
  | arrayLength => simp only [reply, argument_rename, sizeOf_rename h]
  | kindOf => simp only [reply, argument_rename, kind_rename]
  | parseInt => simp only [reply, integerOf_rename h]
  | parseFloat => simp only [reply, floatOf, textArgument_rename h]
  | print | printLine | asText => simp only [reply, argument_rename, display_rename h]
  | toUpper | toLower | replace | trim | startsWith | endsWith | contains | indexOf =>
    simp only [reply, textArgument_rename h]
  | clearScreen | sleep | random | split | arrayNew | arrayPush | arrayPop => rfl

end Builtin

theorem Answer.Plain.rename {r : FrameId → FrameId} {a : Answer} (h : a.Plain) : a.rename r = a := by
  cases a with
  | value v => exact congrArg Answer.value (Value.Plain.rename h)
  | _ => rfl

open Builtin in
/-- **A builtin does not see the frames of functions**: it answers the same and leaves the same in the arrays, with the
frames renamed. -/
theorem run_rename {r : FrameId → FrameId} {s' s : Store} (h : s'.Renames r s) (b : Builtin) (args : List Value) :
    (b.run (args.map (Value.rename r)) s).1 = (b.run args s').1.rename r ∧
      (b.run args s').2.Renames r (b.run (args.map (Value.rename r)) s).2 := by
  have hreply : ∀ b : Builtin, (∀ args s, b.run args s = (b.reply args s, s)) →
      (b.run (args.map (Value.rename r)) s).1 = (b.run args s').1.rename r ∧
        (b.run args s').2.Renames r (b.run (args.map (Value.rename r)) s).2 := by
    intro b hb
    rw [hb, hb, reply_rename h]
    exact ⟨(plain_reply b args).rename.symm, h⟩
  cases b with
  | random =>
    have hb : randomBounds (args.map (Value.rename r)) = randomBounds args := by
      simp only [randomBounds, checkCount_rename, numberArgument_rename, List.length_map]
    simp only [run, randomNumber, hb]
    cases randomBounds args with
    | error f => exact ⟨rfl, h⟩
    | ok bounds =>
      have hdraw : s.draw.1 = s'.draw.1 ∧ s'.draw.2.Renames r s.draw.2 := by
        refine ⟨congrArg (fun x : Random => x.next.1) h.random, h.arrays, h.closures, ?_⟩
        exact congrArg (fun x : Random => x.next.2) h.random
      cases bounds <;> exact ⟨by dsimp only; rw [hdraw.1]; rfl, hdraw.2⟩
  | split =>
    simp only [run, textArgument_rename h]
    have hparts := h.newArray ((splitParts (textArgument s' args 0) (textArgument s' args 1)).map Value.text).toArray
    have htexts : ∀ parts : List String, (parts.map Value.text).toArray.map (Value.rename r) =
        (parts.map Value.text).toArray := by
      intro parts
      rw [List.map_toArray, List.map_map]
      rfl
    rw [htexts] at hparts
    exact ⟨congrArg Answer.value (hparts.1.trans rfl), hparts.2⟩
  | arrayNew =>
    have hempty : (args.map (Value.rename r)).isEmpty = args.isEmpty := List.isEmpty_map
    simp only [run, makeArray, checkCount_rename, integerArgument_rename, hempty]
    split
    · exact ⟨rfl, h⟩
    · rename_i n _
      split
      · have hnulls := h.newArray (Array.replicate n.toNat .null)
        rw [Array.map_replicate] at hnulls
        exact ⟨congrArg Answer.value hnulls.1, hnulls.2⟩
      · exact ⟨rfl, h⟩
  | arrayPush =>
    simp only [run, push, argument_rename]
    cases argument args 0 with
    | array id => exact ⟨rfl, h.mapItems id fun items => Array.map_push.symm⟩
    | _ => exact ⟨rfl, h⟩
  | arrayPop =>
    simp only [run, pop, argument_rename]
    cases argument args 0 with
    | array id =>
      refine ⟨congrArg Answer.value ?_, h.mapItems id fun items => Array.map_pop.symm⟩
      rw [h.items, Array.back?_map]
      cases (s'.items id).back? <;> rfl
    | _ => exact ⟨rfl, h⟩
  | _ => exact hreply _ fun _ _ => rfl

end StepScript
