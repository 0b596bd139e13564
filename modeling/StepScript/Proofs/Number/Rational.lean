import StepScript.Proofs.Number.Doubles

/-!
# The rational value of a number

A finite number is a rational number (`rational?`). Its whole part is the integer part of that (`wholePart_eq`), and what
counts, places and indices take from a number is said in terms of it: `toSigned_of_truncated`, `toUnsigned_of_natural`,
`isIntegral_iff`, `isNegative_iff`.
-/

namespace StepScript.Number

/-- The rational number that a finite number is. -/
def rational? (x : Float) : Option ℚ :=
  match exact x with
  | .finite negative m q => some (if negative then -(m * 2 ^ q) else m * 2 ^ q)
  | _ => none

section Whole

variable {m : Nat} {q : Int}

theorem mul_zpow_of_nonneg (h : 0 ≤ q) : (m : ℚ) * 2 ^ q = ((m * 2 ^ q.toNat : Nat) : ℚ) := by
  obtain ⟨k, rfl⟩ : ∃ k : Nat, q = k := ⟨q.toNat, by omega⟩
  rw [Int.toNat_natCast, zpow_natCast, Nat.cast_mul, Nat.cast_pow, Nat.cast_ofNat]

/-- A power of two with a negative exponent divides. -/
theorem mul_zpow_of_neg (h : ¬0 ≤ q) : (m : ℚ) * 2 ^ q = m / ((2 ^ (-q).toNat : Nat) : ℚ) := by
  obtain ⟨k, rfl⟩ : ∃ k : Nat, q = -(k : Int) := ⟨(-q).toNat, by omega⟩
  rw [Int.neg_neg, Int.toNat_natCast, zpow_neg, zpow_natCast, div_eq_mul_inv, Nat.cast_pow, Nat.cast_ofNat]

theorem mul_zpow_nonneg (m : Nat) (q : Int) : (0 : ℚ) ≤ m * 2 ^ q :=
  mul_nonneg (Nat.cast_nonneg m) (zpow_nonneg zero_le_two q)

theorem mul_zpow_eq_zero : (m : ℚ) * 2 ^ q = 0 ↔ m = 0 := by
  rw [mul_eq_zero, Nat.cast_eq_zero, or_iff_left (zpow_ne_zero q two_ne_zero)]

/-- **The whole part is the integer part.** -/
theorem wholePart_eq (m : Nat) (q : Int) : wholePart m q = ⌊(m * 2 ^ q : ℚ)⌋₊ := by
  unfold wholePart
  split
  · rename_i h
    rw [mul_zpow_of_nonneg h, Nat.floor_natCast, Nat.pow_eq]
  · rename_i h
    rw [mul_zpow_of_neg h, Nat.floor_div_eq_div, Nat.pow_eq]

theorem isWhole_iff (m : Nat) (q : Int) : isWhole m q = true ↔ ((wholePart m q : Nat) : ℚ) = m * 2 ^ q := by
  unfold isWhole wholePart
  by_cases h : 0 ≤ q
  · simp [h, mul_zpow_of_nonneg h]
  · have hpos : ((2 ^ (-q).toNat : Nat) : ℚ) ≠ 0 := by positivity
    rw [if_neg h, mul_zpow_of_neg h, eq_div_iff hpos, ← Nat.cast_mul, Nat.cast_inj]
    simp only [h, decide_false, Bool.false_or, beq_iff_eq, Nat.pow_eq]
    exact ⟨fun hd => Nat.div_mul_cancel (Nat.dvd_of_mod_eq_zero hd), fun he => Nat.mod_eq_zero_of_dvd ⟨_, he.symm.trans
      (Nat.mul_comm _ _)⟩⟩

end Whole

section Values

variable {x : Float}

/-- A number is below zero if its value is, or if it is negative infinity. -/
theorem isNegative_iff : isNegative x = true ↔ exact x = .infinite true ∨ ∃ r < 0, rational? x = some r := by
  unfold isNegative rational?
  cases exact x with
  | nan => simp
  | infinite negative => simp
  | finite negative m q =>
    have hle := mul_zpow_nonneg m q
    cases negative with
    | false => simpa using hle
    | true =>
      have hlt : (0 : ℚ) < m * 2 ^ q ↔ m ≠ 0 := by rw [hle.lt_iff_ne, ne_comm, Ne, mul_zpow_eq_zero]
      simpa using hlt.symm

theorem isIntegral_iff : isIntegral x = true ↔ ∃ k : ℤ, rational? x = some (k : ℚ) := by
  unfold isIntegral rational?
  cases exact x with
  | nan => simp
  | infinite negative => simp
  | finite negative m q =>
    simp only [Option.some.injEq]
    rw [isWhole_iff]
    constructor
    · intro h
      refine ⟨if negative then -(wholePart m q : ℤ) else wholePart m q, ?_⟩
      rw [← h]
      cases negative <;> simp
    · rintro ⟨k, hk⟩
      -- The value without its sign is an integer as well, and no less than zero.
      have habs : (m : ℚ) * 2 ^ q = ((k.natAbs : Nat) : ℚ) := by
        rw [Nat.cast_natAbs, Int.cast_abs, ← hk]
        cases negative <;> simp [abs_of_nonneg (mul_zpow_nonneg m q)]
      rw [wholePart_eq, habs, Nat.floor_natCast]

/-- A natural number is the whole part of a number that it is equal to. -/
theorem toUnsigned_of_natural {n : Nat} (h : rational? x = some (n : ℚ)) : toUnsigned x = min n maxUnsigned := by
  unfold rational? at h
  unfold toUnsigned
  cases hx : exact x with
  | nan => simp [hx] at h
  | infinite negative => simp [hx] at h
  | finite negative m q =>
    have hle := mul_zpow_nonneg m q
    have hn : (0 : ℚ) ≤ n := Nat.cast_nonneg n
    simp only [hx, Option.some.injEq] at h ⊢
    cases negative with
    | false =>
      simp only [Bool.false_eq_true, if_false] at h ⊢
      rw [wholePart_eq, h, Nat.floor_natCast]
    | true =>
      simp only [if_true] at h ⊢
      have hzero : (n : ℚ) = 0 := by linarith
      rw [Nat.cast_eq_zero.1 hzero, Nat.zero_min]

/-- No number counts as nothing, and neither does what is not above zero. -/
theorem toUnsigned_of_low (h : x.isNaN = true ∨ x ≤ 0.0) : toUnsigned x = 0 := by
  unfold toUnsigned
  rw [isNaN_iff, le_zero_iff] at h
  rcases h with hx | hx | ⟨negative, q, hx⟩
  · rw [hx]
  · unfold isNegative at hx
    split at hx
    · cases hx
    · rw [if_pos hx]
    · rw [if_pos (Bool.and_eq_true_iff.1 hx).1]
  · have hzero : wholePart 0 q = 0 := by rw [wholePart_eq, Nat.cast_zero, zero_mul, Nat.floor_zero]
    simp only [hx, hzero, Nat.zero_min, ite_self]

/-- What is above zero counts for its whole part, and for the greatest number where there is no end to it. -/
theorem toUnsigned_of_high (h : ¬(x.isNaN = true ∨ x ≤ 0.0)) :
    toUnsigned x = match rational? x with
      | some r => min ⌊r⌋₊ maxUnsigned
      | none => maxUnsigned := by
  rw [isNaN_iff, le_zero_iff] at h
  unfold toUnsigned rational?
  cases hx : exact x with
  | nan => exact absurd (.inl hx) h
  | infinite negative =>
    cases negative with
    | false => rfl
    | true => exact absurd (.inr (.inl (by rw [isNegative, hx]))) h
  | finite negative m q =>
    cases negative with
    | false =>
      show min (wholePart m q) maxUnsigned = min ⌊(m * 2 ^ q : ℚ)⌋₊ maxUnsigned
      rw [wholePart_eq]
    | true =>
      refine absurd (.inr ?_) h
      by_cases hm : m = 0
      · exact .inr ⟨true, q, hm ▸ hx⟩
      · exact .inl (by simp [isNegative, hx, hm])

/-- The value rounded toward zero. -/
def truncated? (x : Float) : Option ℤ := (rational? x).map fun r => if r < 0 then ⌈r⌉ else ⌊r⌋

theorem truncated?_of_integer {k : ℤ} (h : rational? x = some (k : ℚ)) : truncated? x = some k := by
  rw [truncated?, h, Option.map_some, Int.ceil_intCast, Int.floor_intCast, ite_self]

/-- **What a number counts for is its value rounded toward zero and held within 64 bits.** -/
theorem toSigned_of_truncated {k : ℤ} (h : truncated? x = some k) : toSigned x = max minSigned (min k maxSigned) := by
  unfold truncated? rational? at h
  unfold toSigned
  cases hx : exact x with
  | nan => simp [hx] at h
  | infinite negative => simp [hx] at h
  | finite negative m q =>
    have hle := mul_zpow_nonneg m q
    have hwhole : ((wholePart m q : Nat) : ℤ) = ⌊(m * 2 ^ q : ℚ)⌋ := by
      rw [wholePart_eq, Int.natCast_floor_eq_floor hle]
    simp only [hx, Option.map_some, Option.some.injEq] at h ⊢
    cases negative with
    | false =>
      simp only [Bool.false_eq_true, if_false, not_lt.2 hle] at h ⊢
      have hk : 0 ≤ k := h ▸ Int.floor_nonneg.2 hle
      rw [hwhole, h, max_eq_right (le_min (le_trans (by decide) hk) (by decide))]
    | true =>
      have hceil : k = -⌊(m * 2 ^ q : ℚ)⌋ := by
        rw [← h, if_pos rfl]
        split
        · rw [Int.ceil_neg]
        · rename_i hneg
          have hzero : (m * 2 ^ q : ℚ) = 0 := le_antisymm (by linarith) hle
          rw [hzero, neg_zero, Int.floor_zero, neg_zero]
      have hk : k ≤ 0 := by
        rw [hceil]
        exact neg_nonpos.2 (Int.floor_nonneg.2 hle)
      rw [if_pos rfl, hwhole, ← hceil, min_eq_left (le_trans hk (by decide)), max_comm]

/-- A natural number below `2 ^ 53` is the value of its double. -/
theorem rational?_ofNat {n : Nat} (hn : n < 2 ^ 53) : rational? (Float.ofNat n) = some (n : ℚ) := by
  rcases Nat.eq_zero_or_pos n with rfl | h
  · have hzero : exact (Float.ofNat 0) = .finite false 0 (-1074) := by decide
    simp [rational?, hzero]
  · have hlt := (Nat.log2_lt (Nat.ne_of_gt h)).2 hn
    have hexponent : ((n.log2 : ℤ) - 52 : ℤ) = -((52 - n.log2 : Nat) : ℤ) := by omega
    have hpow : (2 : ℚ) ^ (52 - n.log2) ≠ 0 := pow_ne_zero _ two_ne_zero
    rw [rational?, exact_ofNat h hn, hexponent]
    simp only [Bool.false_eq_true, if_false, Nat.cast_mul, Nat.cast_pow, Nat.cast_ofNat, zpow_neg, zpow_natCast]
    rw [mul_assoc, mul_inv_cancel₀ hpow, mul_one]

end Values

end StepScript.Number
