import StepScript.Text.Bytes
import Mathlib.Data.List.Basic

/-!
# Characters among the bytes of a text

The bytes of an ASCII character stand nowhere but where the character does (`head?_bytes_iff`), so what is found
among the bytes of a text is found in the text. Where a part of a text ends its bytes end, and the slice up to there
is that part (`sliceTo?_append`).
-/

namespace StepScript.Text

variable {c d : Char}

@[simp] theorem bytes_nil : bytes [] = [] := rfl

theorem bytes_cons (c : Char) (cs : List Char) : bytes (c :: cs) = String.utf8EncodeChar c ++ bytes cs := rfl

@[simp] theorem bytes_append (cs ds : List Char) : bytes (cs ++ ds) = bytes cs ++ bytes ds := by simp [bytes]

theorem encode_ascii (hc : c.toNat < 128) : String.utf8EncodeChar c = [c.toUInt8] := by
  unfold String.utf8EncodeChar
  rw [if_pos (show c.val.toNat ≤ 0x7f from Nat.le_of_lt_succ hc)]
  rfl

theorem toNat_toUInt8 (hc : c.toNat < 128) : c.toUInt8.toNat = c.toNat := by
  show c.val.toNat % 2 ^ 8 = c.val.toNat
  exact Nat.mod_eq_of_lt (Nat.lt_trans hc (by decide))

/-- A character that is not ASCII begins with a byte that is none either. -/
theorem encode_beyond (hc : 128 ≤ c.toNat) : ∃ b bs, String.utf8EncodeChar c = b :: bs ∧ 128 ≤ b.toNat := by
  have hlt : ¬ c.val.toNat ≤ 0x7f := Nat.not_le.2 hc
  fun_cases String.utf8EncodeChar c
  · contradiction
  all_goals
    refine ⟨_, _, rfl, ?_⟩
    rw [UInt8.toNat_ofNat']
    omega

/-- The first byte of a character tells whether it is ASCII, and if so it is all of it. -/
theorem exists_encode (c : Char) : ∃ b bs, String.utf8EncodeChar c = b :: bs ∧
    (c.toNat < 128 ∧ b.toNat = c.toNat ∧ bs = [] ∨ 128 ≤ c.toNat ∧ 128 ≤ b.toNat) := by
  by_cases hc : c.toNat < 128
  · exact ⟨_, _, encode_ascii hc, .inl ⟨hc, toNat_toUInt8 hc, rfl⟩⟩
  · obtain ⟨b, bs, hencode, hb⟩ := encode_beyond (Nat.not_lt.1 hc)
    exact ⟨b, bs, hencode, .inr ⟨Nat.not_lt.1 hc, hb⟩⟩

/-- A text begins with the byte of an ASCII character where it begins with the character. -/
theorem head?_bytes_iff (hd : d.toNat < 128) {cs : List Char} :
    (bytes cs).head? = some d.toUInt8 ↔ cs.head? = some d := by
  cases cs with
  | nil => simp
  | cons c cs =>
    obtain ⟨b, bs, hencode, hb⟩ := exists_encode c
    rw [bytes_cons, hencode, List.cons_append, List.head?_cons, List.head?_cons, Option.some_inj, Option.some_inj,
      ← UInt8.toNat_inj, toNat_toUInt8 hd, ← Char.toNat_inj]
    omega

theorem length_bytes_ascii {cs : List Char} (h : ∀ c ∈ cs, c.toNat < 128) : (bytes cs).length = cs.length := by
  induction cs with
  | nil => rfl
  | cons c cs ih =>
    obtain ⟨hc, hcs⟩ := List.forall_mem_cons.1 h
    rw [bytes_cons, encode_ascii hc, List.length_append, ih hcs, List.length_cons, List.length_cons, Nat.add_comm]
    rfl

/-- An ASCII character within a text is one byte. -/
theorem length_bytes_insert (hc : c.toNat < 128) (cs ds : List Char) :
    (bytes (cs ++ c :: ds)).length = (bytes cs).length + 1 + (bytes ds).length := by
  rw [bytes_append, bytes_cons, encode_ascii hc, List.length_append, List.length_append, List.length_singleton,
    Nat.add_assoc]

/-- The slice up to where a part of the text ends is that part. -/
theorem sliceTo?_append (cs ds : List Char) : sliceTo? (cs ++ ds) (bytes cs).length = some cs := by
  induction cs with
  | nil => unfold sliceTo?; rfl
  | cons c cs ih =>
    have hpos := c.utf8Size_pos
    have hlength : (bytes (c :: cs)).length = c.utf8Size + (bytes cs).length := by
      rw [bytes_cons, List.length_append, String.length_utf8EncodeChar]
    obtain ⟨n, hn⟩ := Nat.exists_eq_succ_of_ne_zero (n := (bytes (c :: cs)).length) (by omega)
    have hrest : n + 1 - c.utf8Size = (bytes cs).length := by omega
    rw [hn, List.cons_append, Nat.succ_eq_add_one, sliceTo?, if_pos (by omega), hrest, ih]
    rfl

end StepScript.Text
