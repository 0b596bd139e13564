import StepScript.Text.Slice

/-!
# What is cut out of a text and what is built from copies of it

The part of a text between two places is the same whichever place comes first (`between_comm`), and two parts that meet
at a place are one (`between_append`). Copies stand in a row (`toList_copies`). A text that starts again when it ends has
at a place the character that is at the place modulo its length (`getElem?_cycled`); so many of its characters are there
unless it is empty (`length_cycled`, `cycled_empty`).
-/

namespace StepScript.Text

section Between

variable {cs : List Char} {i j k : Nat}

theorem between_comm (cs : List Char) (i j : Nat) : between cs i j = between cs j i := by
  rw [between, between, Nat.max_comm, Nat.min_comm]

theorem between_of_le (h : i ≤ j) : between cs i j = (cs.take j).drop i := by
  rw [between, Nat.max_eq_right h, Nat.min_eq_left h]

/-- **Two parts that meet are one.** -/
theorem between_append (hij : i ≤ j) (hjk : j ≤ k) : between cs i j ++ between cs j k = between cs i k := by
  rw [between_of_le hij, between_of_le hjk, between_of_le (Nat.le_trans hij hjk)]
  calc (cs.take j).drop i ++ (cs.take k).drop j
      = ((cs.take k).take j).drop i ++ (cs.take k).drop j := by rw [List.take_take, Nat.min_eq_left hjk]
    _ = ((cs.take k).drop i).take (j - i) ++ ((cs.take k).drop i).drop (j - i) := by
        rw [List.take_drop, List.drop_drop, Nat.add_sub_cancel' hij]
    _ = (cs.take k).drop i := List.take_append_drop _ _

/-- From a place to the end nothing is left out. -/
theorem between_length (h : i ≤ cs.length) : between cs i cs.length = cs.drop i := by
  rw [between_of_le h, List.take_length]

end Between

section Copies

theorem toList_copiesOnto (text : String) (n : Nat) (out : String) :
    (copiesOnto text n out).toList = out.toList ++ (List.replicate n text.toList).flatten := by
  induction n generalizing out with
  | zero => simp [copiesOnto]
  | succ n ih => rw [copiesOnto, ih, List.replicate_succ, List.flatten_cons, String.toList_append, List.append_assoc]

theorem toList_copies (text : String) (n : Nat) : (copies text n).toList = (List.replicate n text.toList).flatten :=
  toList_copiesOnto text n ""

theorem length_copies (text : String) (n : Nat) : (copies text n).length = n * text.length := by
  rw [← String.length_toList, toList_copies, List.length_flatten, List.map_replicate, List.sum_replicate_nat,
    String.length_toList]

end Copies

section Cycled

variable {fill : List Char}

/-- The characters that are put behind `out`, when those of `fill` are used up as far as the place `o`. -/
theorem exists_cycledOnto (hfill : fill ≠ []) (n : Nat) {o : Nat} (ho : o ≤ fill.length) (out : String) :
    ∃ pad, (cycledOnto fill n (fill.drop o) out).toList = out.toList ++ pad ∧ pad.length = n ∧
      ∀ i < n, pad[i]? = fill[(o + i) % fill.length]? := by
  induction n generalizing o out with
  | zero => exact ⟨[], by simp [cycledOnto], rfl, fun i hi => absurd hi (Nat.not_lt_zero i)⟩
  | succ n ih =>
    have hpos : 0 < fill.length := List.length_pos_iff.2 hfill
    rcases Nat.lt_or_eq_of_le ho with hlt | rfl
    · obtain ⟨pad, hpad, hlength, hat⟩ := ih hlt (out.push fill[o])
      refine ⟨fill[o] :: pad, ?_, by rw [List.length_cons, hlength], fun i hi => ?_⟩
      · rw [List.drop_eq_getElem_cons hlt, cycledOnto, hpad, String.toList_push, List.append_assoc, List.singleton_append]
      · cases i with
        | zero => rw [List.getElem?_cons_zero, Nat.add_zero, Nat.mod_eq_of_lt hlt, List.getElem?_eq_getElem hlt]
        | succ i => rw [List.getElem?_cons_succ, hat i (by omega), Nat.succ_add_eq_add_succ]
    · obtain ⟨c, rest, rfl⟩ := List.exists_cons_of_ne_nil hfill
      obtain ⟨pad, hpad, hlength, hat⟩ := ih hpos (out.push c)
      rw [List.drop_succ_cons, List.drop_zero] at hpad
      refine ⟨c :: pad, ?_, by rw [List.length_cons, hlength], fun i hi => ?_⟩
      · rw [List.drop_length, cycledOnto, hpad, String.toList_push, List.append_assoc, List.singleton_append]
      · -- After the end the text starts again: the place is one further than the whole length.
        cases i with
        | zero => simp
        | succ i =>
          rw [List.getElem?_cons_succ, hat i (by omega), Nat.add_mod_left, Nat.succ_add_eq_add_succ, Nat.zero_add]

variable {fill : String}

theorem exists_cycled (hfill : fill ≠ "") (n : Nat) :
    (cycled fill n).toList.length = n ∧ ∀ i < n, (cycled fill n).toList[i]? = fill.toList[i % fill.length]? := by
  have hne : fill.toList ≠ [] := fun h => hfill (String.toList_eq_nil_iff.1 h)
  obtain ⟨pad, hpad, hlength, hat⟩ := exists_cycledOnto hne n (Nat.zero_le _) ""
  rw [List.drop_zero, String.toList_empty, List.nil_append] at hpad
  rw [cycled, hpad]
  refine ⟨hlength, fun i hi => ?_⟩
  rw [hat i hi, Nat.zero_add, String.length_toList]

theorem length_cycled (hfill : fill ≠ "") (n : Nat) : (cycled fill n).length = n := by
  rw [← String.length_toList]
  exact (exists_cycled hfill n).1

/-- **Where the text has ended it starts again.** -/
theorem getElem?_cycled (hfill : fill ≠ "") {n i : Nat} (hi : i < n) :
    (cycled fill n).toList[i]? = fill.toList[i % fill.length]? :=
  (exists_cycled hfill n).2 i hi

theorem cycled_empty (n : Nat) : cycled "" n = "" := by
  cases n <;> rfl

theorem cycled_zero (fill : String) : cycled fill 0 = "" := by
  rw [cycled, cycledOnto]

end Cycled

end StepScript.Text
