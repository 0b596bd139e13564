import StepScript.Builtin.Run
import StepScript.Machine.Operators
import StepScript.Proofs.Number.Rational

/-!
# Arrays as lists with an identity

What a program has of an array is its identity; what is in it is a list that goes by the identity (`Lists`). Operations
on arrays (`ArrayOp`) come out with a value or fail, and change the lists (`ArrayOp.effect`): a list is made under an
identity that was free, or the list of one identity is changed.

* The place of an element is a natural number (`Value.place?`). A place that is written at may lie beyond the end
  (`overwritten`).
* The arrays of a store are such lists (`Store.lists`). The builtins on arrays have the effects of their operations
  (`run_effect`), and the others leave the lists alone (`arrays_run`).
-/

namespace StepScript

/-- Lists by their identities; an identity is free if there is no list. -/
abbrev Lists := ArrayId → Option (List Value)

/-- The arrays of a store as lists. -/
def Store.lists (s : Store) : Lists := fun id => s.arrays[id]?.map Array.toList

/-- The place that a value is: the natural number that it is equal to. -/
def Value.place? : Value → Option Nat
  | number x => (Number.rational? x).bind fun r => if (⌊r⌋₊ : ℚ) = r then some ⌊r⌋₊ else none
  | _ => none

/-- The list with `v` at a place. What then lies between the end of the list and the place is null. -/
def overwritten (items : List Value) (i : Nat) (v : Value) : List Value :=
  (List.range (max items.length (i + 1))).map fun j => if j = i then v else items.getD j .null

/-- An operation on arrays, with the values that it is asked for with. -/
inductive ArrayOp where
  /-- An array of given elements. -/
  | make (items : List Value)
  /-- An array of nulls, with the arguments that say how many. -/
  | new (args : List Value)
  | write (object index v : Value)
  /-- An element of null is to be written. -/
  | writeNull
  | read (id : ArrayId) (index : Value)
  | length (id : ArrayId)
  | push (object v : Value)
  | pop (object : Value)

/-- So many nulls are asked for; without an argument none. -/
def newLength? : List Value → Option Nat
  | [] => some 0
  | [.number x] =>
    if 0 ≤ Number.toSigned x ∧ Number.toSigned x ≤ 10000000 then some (Number.toSigned x).toNat else none
  | _ => none

/-- The list of a value that is an array. -/
def Lists.at? (l : Lists) : Value → Option (ArrayId × List Value)
  | .array id => (l id).map (id, ·)
  | _ => none

/-- What an operation comes out with, if it does not fail, and the lists after it. A list that is made goes by the
identity `fresh`. -/
def ArrayOp.effect (l : Lists) (fresh : ArrayId) : ArrayOp → Option Value × Lists
  | make items => (some (.array fresh), Function.update l fresh (some items))
  | new args =>
    match newLength? args with
    | some n => (some (.array fresh), Function.update l fresh (some (List.replicate n .null)))
    | none => (none, l)
  | write object index v =>
    match l.at? object, index.place? with
    | some (id, items), some i =>
      if i ≤ 10000000 then (some v, Function.update l id (some (overwritten items i v))) else (none, l)
    | _, _ => (none, l)
  | writeNull => (none, l)
  | read id index => ((l id).bind fun items => index.place?.bind fun i => items[i]?, l)
  | length id => ((l id).map fun items => .number (Float.ofNat items.length), l)
  | push .null _ => (some .null, l)
  | push object v =>
    match l.at? object with
    | some (id, items) => (some object, Function.update l id (some (items ++ [v])))
    | none => (none, l)
  | pop .null => (some .null, l)
  | pop object =>
    match l.at? object with
    | some (id, items) => (some (items.getLast?.getD .null), Function.update l id (some items.dropLast))
    | none => (none, l)

/-! ## Places -/

section Places

variable {v : Value} {i : Nat}

theorem Value.place?_eq_some_iff : v.place? = some i ↔ ∃ x, v = .number x ∧ Number.rational? x = some (i : ℚ) := by
  cases v with
  | number x =>
    simp only [place?, Option.bind_eq_some_iff, Value.number.injEq, exists_eq_left']
    constructor
    · rintro ⟨r, hr, hi⟩
      split at hi
      · rename_i hfloor
        rw [hr, ← Option.some.inj hi, hfloor]
      · cases hi
    · intro hr
      exact ⟨i, hr, by rw [Nat.floor_natCast, if_pos rfl]⟩
  | _ => simp [place?]

/-- A place is found where there is one, held within 64 bits. -/
theorem placeOf_of_place (h : v.place? = some i) : placeOf v = .ok (min i Number.maxUnsigned) := by
  obtain ⟨x, rfl, hr⟩ := Value.place?_eq_some_iff.1 h
  have hneg : ¬Number.isNegative x = true := by
    rw [Number.isNegative_iff, hr]
    rintro (hinf | ⟨r, hlt, heq⟩)
    · rw [Number.rational?, hinf] at hr
      cases hr
    · rw [← Option.some.inj heq] at hlt
      exact absurd hlt (not_lt.2 (Nat.cast_nonneg i))
  have hwhole : Number.isIntegral x = true := Number.isIntegral_iff.2 ⟨i, by rw [hr, Int.cast_natCast]⟩
  simp only [placeOf, if_neg hneg, if_pos hwhole, Number.toUnsigned_of_natural hr]

theorem placeOf_of_no_place (h : v.place? = none) : ∃ f, placeOf v = .error f := by
  cases v with
  | number x =>
    simp only [placeOf]
    split
    · exact ⟨_, rfl⟩
    · rename_i hneg
      split
      · rename_i hwhole
        obtain ⟨k, hk⟩ := Number.isIntegral_iff.1 hwhole
        have hle : 0 ≤ k := by
          by_contra hlt
          exact hneg (Number.isNegative_iff.2 (.inr ⟨k, by exact_mod_cast not_le.1 hlt, hk⟩))
        obtain ⟨i, rfl⟩ := Int.eq_ofNat_of_zero_le hle
        rw [Value.place?_eq_some_iff.2 ⟨x, rfl, by rw [hk, Int.cast_natCast]⟩] at h
        cases h
      · exact ⟨_, rfl⟩
  | _ => exact ⟨_, rfl⟩

end Places

/-! ## Lists of a store -/

section Lists

variable {s s' : Store} {id : ArrayId}

theorem lists_size (s : Store) : s.lists s.arrays.size = none := by
  rw [Store.lists, Array.getElem?_eq_none (Nat.le_refl _), Option.map_none]

theorem lists_of_lt (h : id < s.arrays.size) : s.lists id = some (s.items id).toList := by
  rw [Store.lists, Store.items, Array.getElem?_eq_getElem h, Option.map_some, Option.getD_some]

theorem at?_of_lt (h : id < s.arrays.size) : s.lists.at? (.array id) = some (id, (s.items id).toList) := by
  rw [Lists.at?, lists_of_lt h, Option.map_some]

/-- A new array is a list more. -/
theorem lists_push {items : Array Value} (h : s'.arrays = s.arrays.push items) :
    s'.lists = Function.update s.lists s.arrays.size (some items.toList) := by
  funext other
  rw [Store.lists, h, Array.getElem?_push, Function.update_apply]
  split
  · rfl
  · rfl

/-- A change of one array is a change of one list. -/
theorem lists_modify {change : Array Value → Array Value} (h : s'.arrays = s.arrays.modify id change)
    (hid : id < s.arrays.size) : s'.lists = Function.update s.lists id (some (change (s.items id)).toList) := by
  funext other
  rw [Store.lists, h, Array.getElem?_modify, Function.update_apply]
  by_cases hother : other = id
  · rw [if_pos hother.symm, if_pos hother, hother, Array.getElem?_eq_getElem hid, Store.items,
      Array.getElem?_eq_getElem hid]
    rfl
  · rw [if_neg (Ne.symm hother), if_neg hother]
    rfl

theorem getElem?_overwritten (items : List Value) (i : Nat) (v : Value) (j : Nat) :
    (overwritten items i v)[j]? =
      if j < max items.length (i + 1) then some (if j = i then v else items.getD j .null) else none := by
  rw [overwritten, List.getElem?_map]
  split
  · rename_i h
    rw [List.getElem?_range h, Option.map_some]
  · rename_i h
    rw [List.getElem?_eq_none (by rw [List.length_range]; omega), Option.map_none]

/-- A write overwrites a place of the list. -/
theorem toList_writeAt (items : Array Value) (i : Nat) (v : Value) :
    (Store.writeAt items i v).toList = overwritten items.toList i v := by
  apply List.ext_getElem?
  intro j
  rw [getElem?_overwritten, Array.getElem?_toList, Array.length_toList, List.getD_eq_getElem?_getD,
    Array.getElem?_toList, Store.writeAt]
  split
  · -- The place is in the list.
    rename_i hi
    rw [Nat.max_eq_left hi, Array.getElem?_setIfInBounds]
    by_cases hj : j < items.size
    · by_cases hji : j = i
      · simp [hji, hi]
      · simp [hj, hji, Ne.symm hji]
    · have hji : i ≠ j := by omega
      rw [if_neg hji, if_neg hj, Array.getElem?_eq_none (Nat.not_lt.1 hj)]
  · -- The place is beyond the end, and nulls come before it.
    rename_i hi
    have hsize : (items ++ Array.replicate (i - items.size) Value.null).size = i := by
      rw [Array.size_append, Array.size_replicate]
      omega
    rw [Nat.max_eq_right (by omega), Array.getElem?_push, hsize, Array.getElem?_append, Array.getElem?_replicate]
    by_cases hji : j = i
    · simp [hji]
    · by_cases hj : j < items.size
      · have hlt : j < i + 1 := by omega
        simp [hji, hj, hlt]
      · by_cases hlt : j < i + 1
        · have hgap : j - items.size < i - items.size := by omega
          simp [hji, hj, hlt, hgap]
        · have hgap : ¬j - items.size < i - items.size := by omega
          simp [hji, hj, hlt, hgap]

end Lists

/-! ## Reading and writing -/

section Elements

variable {s : Store} {object index v : Value} {id : ArrayId}

/-- A value that is an array is one of the store. -/
def Store.Knows (s : Store) (v : Value) : Prop := ∀ id, v = .array id → id < s.arrays.size

theorem at?_of_ne_array {l : Lists} (h : ∀ id, object ≠ .array id) : l.at? object = none := by
  cases object with
  | array id => exact absurd rfl (h id)
  | _ => rfl

/-- **An element is read where the list has one.** The length of an array is an unsigned 64-bit number. -/
theorem readElement_effect (hid : id < s.arrays.size) (hlength : (s.items id).size ≤ Number.maxUnsigned) (fresh : ArrayId) :
    (readElement s (.array id) index).toOption = ((ArrayOp.read id index).effect s.lists fresh).1 := by
  rw [ArrayOp.effect, lists_of_lt hid, Option.bind_some]
  cases hplace : index.place? with
  | none =>
    obtain ⟨f, hf⟩ := placeOf_of_no_place hplace
    simp only [readElement, hf]
    rfl
  | some i =>
    simp only [readElement, placeOf_of_place hplace, Option.bind_some, Array.getElem?_toList]
    have hread : (s.items id)[min i Number.maxUnsigned]? = (s.items id)[i]? := by
      by_cases hi : i ≤ Number.maxUnsigned
      · rw [Nat.min_eq_left hi]
      · rw [Nat.min_eq_right (by omega), Array.getElem?_eq_none hlength, Array.getElem?_eq_none (by omega)]
    dsimp only [bind, Except.bind]
    rw [hread]
    cases (s.items id)[i]? <;> rfl

/-- **An element is written at a place of the limits of an array.** -/
theorem writePlace_effect (hobject : s.Knows object) (fresh : ArrayId) :
    (∃ id i, writePlace object index = .ok (id, i) ∧ object = .array id ∧
      (ArrayOp.write object index v).effect s.lists fresh =
        (some v, Function.update s.lists id (some (overwritten (s.items id).toList i v)))) ∨
    ∃ f, writePlace object index = .error f ∧
      (ArrayOp.write object index v).effect s.lists fresh = (none, s.lists) := by
  by_cases harray : ∃ id, object = .array id
  · obtain ⟨id, rfl⟩ := harray
    have hat := at?_of_lt (hobject id rfl)
    cases hplace : index.place? with
    | none =>
      obtain ⟨f, hf⟩ := placeOf_of_no_place hplace
      refine .inr ⟨f, ?_, ?_⟩
      · rw [writePlace, hf]
        rfl
      · simp only [ArrayOp.effect, hplace, hat]
    | some i =>
      by_cases hi : i ≤ 10000000
      · refine .inl ⟨id, i, ?_, rfl, ?_⟩
        · have hmin : min i Number.maxUnsigned = i := Nat.min_eq_left (Nat.le_trans hi (by decide))
          simp only [writePlace, placeOf_of_place hplace, hmin]
          exact if_neg (Nat.not_lt.2 hi)
        · simp only [ArrayOp.effect, hplace, hat, if_pos hi]
      · refine .inr ⟨.indexTooLarge (min i Number.maxUnsigned), ?_, ?_⟩
        · have hlarge : maxWriteIndex < min i Number.maxUnsigned :=
            Nat.lt_min.2 ⟨Nat.not_le.1 hi, by decide⟩
          simp only [writePlace, placeOf_of_place hplace]
          exact if_pos hlarge
        · simp only [ArrayOp.effect, hplace, hat, if_neg hi]
  · have hne : ∀ id, object ≠ .array id := fun id h => harray ⟨id, h⟩
    refine .inr ⟨.assignIndex object.kind, ?_, ?_⟩
    · cases object with
      | array id => exact absurd rfl (hne id)
      | _ => rfl
    · simp only [ArrayOp.effect, at?_of_ne_array hne]

end Elements

/-! ## Builtins -/

/-- The answer is a value, or a fault if there is none. -/
inductive Answer.Gives : Answer → Option Value → Prop
  | value (v : Value) : Gives (.value v) (some v)
  | fault (f : RuntimeFault) : Gives (.fault f) none

namespace Builtin

/-- The operation that a builtin is. -/
def arrayOp? (s : Store) (b : Builtin) (args : List Value) : Option ArrayOp :=
  match b with
  | .split => some (.make ((splitParts (textArgument s args 0) (textArgument s args 1)).map .text))
  | .arrayNew => some (.new args)
  | .arrayPush => some (.push (argument args 0) (argument args 1))
  | .arrayPop => some (.pop (argument args 0))
  | .arrayLength =>
    match argument args 0 with
    | .array id => some (.length id)
    | _ => none
  | _ => none

section Run

variable {s : Store} {b : Builtin} {args : List Value} {op : ArrayOp}

theorem knows_argument (h : ∀ v ∈ args, s.Knows v) (i : Nat) : s.Knows (argument args i) := by
  rw [argument, List.getD_eq_getElem?_getD]
  cases hv : args[i]? with
  | none => exact fun id h => by cases h
  | some v => exact h v (List.mem_of_getElem? hv)

/-- What an array is asked to have, and the array that is made. -/
theorem makeArray_effect (args : List Value) (s : Store) :
    (makeArray args s).1.Gives ((ArrayOp.new args).effect s.lists s.arrays.size).1 ∧
      (makeArray args s).2.lists = ((ArrayOp.new args).effect s.lists s.arrays.size).2 := by
  match args with
  | [] => exact ⟨.value _, lists_push rfl⟩
  | [.number x] =>
    have hmake : makeArray [.number x] s =
        if 0 ≤ Number.toSigned x ∧ Number.toSigned x ≤ 10000000 then
          (.value (.array s.arrays.size), (s.newArray (Array.replicate (Number.toSigned x).toNat .null)).2)
        else (.fault (.arrayLength (Number.toSigned x)), s) := rfl
    rw [hmake, ArrayOp.effect, newLength?]
    by_cases hn : 0 ≤ Number.toSigned x ∧ Number.toSigned x ≤ 10000000
    · have hlists := @lists_push s (s.newArray (Array.replicate (Number.toSigned x).toNat .null)).2 _ rfl
      rw [Array.toList_replicate] at hlists
      rw [if_pos hn, if_pos hn]
      exact ⟨.value _, hlists⟩
    · rw [if_neg hn, if_neg hn]
      exact ⟨.fault _, rfl⟩
  | [.null] | [.boolean _] | [.text _] | [.array _] | [.closure _] | [.native _] => exact ⟨.fault _, rfl⟩
  | u :: v :: rest =>
    have hlength : newLength? (u :: v :: rest) = none := by cases u <;> rfl
    obtain ⟨f, hf⟩ : ∃ f, makeArray (u :: v :: rest) s = (.fault f, s) := ⟨_, rfl⟩
    rw [hf, ArrayOp.effect, hlength]
    exact ⟨.fault f, rfl⟩

theorem push_effect (h : ∀ v ∈ args, s.Knows v) (fresh : ArrayId) :
    (push args s).1.Gives ((ArrayOp.push (argument args 0) (argument args 1)).effect s.lists fresh).1 ∧
      (push args s).2.lists = ((ArrayOp.push (argument args 0) (argument args 1)).effect s.lists fresh).2 := by
  have hobject := knows_argument h 0
  unfold push
  cases hv : argument args 0 with
  | array id =>
    have hid := hobject id hv
    simp only [ArrayOp.effect, at?_of_lt hid]
    have hlists := @lists_modify s (s.mapItems id (·.push (argument args 1))) id (·.push (argument args 1)) rfl hid
    rw [Array.toList_push] at hlists
    exact ⟨.value _, hlists⟩
  | null => exact ⟨.value _, rfl⟩
  | boolean | number | text | closure | native => exact ⟨.fault _, rfl⟩

theorem pop_effect (h : ∀ v ∈ args, s.Knows v) (fresh : ArrayId) :
    (pop args s).1.Gives ((ArrayOp.pop (argument args 0)).effect s.lists fresh).1 ∧
      (pop args s).2.lists = ((ArrayOp.pop (argument args 0)).effect s.lists fresh).2 := by
  have hobject := knows_argument h 0
  unfold pop
  cases hv : argument args 0 with
  | array id =>
    have hid := hobject id hv
    simp only [ArrayOp.effect, at?_of_lt hid, Array.getLast?_toList]
    have hlists := @lists_modify s (s.mapItems id Array.pop) id _ rfl hid
    rw [Array.toList_pop] at hlists
    exact ⟨.value _, hlists⟩
  | null => exact ⟨.value _, rfl⟩
  | boolean | number | text | closure | native => exact ⟨.fault _, rfl⟩

/-- **A builtin on arrays has the effect of its operation.** -/
theorem run_effect (h : ∀ v ∈ args, s.Knows v) (hop : b.arrayOp? s args = some op) :
    (b.run args s).1.Gives (op.effect s.lists s.arrays.size).1 ∧
      (b.run args s).2.lists = (op.effect s.lists s.arrays.size).2 := by
  cases b with
  | split =>
    cases hop
    exact ⟨.value _, lists_push rfl⟩
  | arrayNew =>
    cases hop
    exact makeArray_effect args s
  | arrayPush =>
    cases hop
    exact push_effect h _
  | arrayPop =>
    cases hop
    exact pop_effect h _
  | arrayLength =>
    have hobject := knows_argument h 0
    unfold arrayOp? at hop
    cases hv : argument args 0 with
    | array id =>
      rw [hv] at hop
      cases hop
      simp only [run, reply, hv, sizeOf, ArrayOp.effect, lists_of_lt (hobject id hv), Option.map_some,
        Array.length_toList]
      exact ⟨.value _, trivial⟩
    | _ =>
      rw [hv] at hop
      cases hop
  | _ => cases hop

/-- The other builtins leave the arrays alone. -/
theorem arrays_run (hop : b.arrayOp? s args = none) : (b.run args s).2.arrays = s.arrays := by
  cases b with
  | split | arrayNew | arrayPush | arrayPop => cases hop
  | random =>
    simp only [run, randomNumber]
    split
    · rfl
    · split <;> rfl
  | _ => rfl

end Run

end Builtin

end StepScript
