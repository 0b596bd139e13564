import Mathlib
import StepScript.Number.Exact

/-!
# Doubles and what they stand for

The arithmetic of doubles takes them apart into a sign, a mantissa and an exponent, and packs the rounded result again.
What a number stands for here is what it is taken apart into (`exact_eq`).

* A mantissa of 53 bits is packed without loss (`unpack_pack_finite`), and rounding gives 53 bits (`exists_round`), the
  same ones if there are no others than zeros below them (`round_exact`).
* So a natural number below `2 ^ 53` is a double exactly (`exact_ofNat`), and the greater ones are above zero
  (`unpack_ofNat_large`).
* Comparing a number with zero looks at its sign and at whether it is zero (`zero_le_iff`, `le_zero_iff`,
  `beq_zero_iff`).
-/

namespace StepScript.Number

open Float.Model Float.Model.UnpackedFloat

/-- Whether a sign is a minus. -/
def isMinus : Sign → Bool
  | .negative => true
  | .positive => false

/-- What a double that was taken apart stands for. -/
def Exact.ofUnpacked : UnpackedFloat → Exact
  | .notANumber => .nan
  | .infinity sign => .infinite (isMinus sign)
  | .zero sign => .finite (isMinus sign) 0 (-1074)
  | .finite sign m e _ => .finite (isMinus sign) m e

/-! ## Taking apart -/

section Fields

variable (b : BitVec 64)

theorem toNat_unpackMantissa : (@unpackMantissa .binary64 b).toNat = b.toNat % 2 ^ 52 := by
  show (b.toNat >>> 0) % 2 ^ 52 = b.toNat % 2 ^ 52
  rw [Nat.shiftRight_zero]

theorem toNat_unpackExponent : (@unpackExponent .binary64 b).toNat = b.toNat / 2 ^ 52 % 2 ^ 11 := by
  show (b.toNat >>> 52) % 2 ^ 11 = b.toNat / 2 ^ 52 % 2 ^ 11
  rw [Nat.shiftRight_eq_div_pow]

theorem toNat_unpackSign : (@unpackSign .binary64 b).toNat = b.toNat / 2 ^ 63 := by
  show (b.toNat >>> 63) % 2 ^ 1 = b.toNat / 2 ^ 63
  rw [Nat.shiftRight_eq_div_pow]
  have := b.isLt
  omega

theorem isMinus_ofBitVec (v : BitVec 1) : isMinus (.ofBitVec v) = (v.toNat == 1) := by
  revert v
  decide

/-- The leading one of a mantissa is not stored. -/
theorem toNat_implicit (v : BitVec 52) : (1#1 ++ v).toNat = v.toNat + 2 ^ 52 := by
  rw [BitVec.toNat_append, ← Nat.shiftLeft_add_eq_or_of_lt v.isLt, Nat.add_comm]
  rfl

end Fields

/-- **A number stands for what it is taken apart into.** -/
theorem exact_eq (x : Float) : exact x = .ofUnpacked x.toModel.unpack := by
  have hm := toNat_unpackMantissa x.toModel.toBits.toBitVec
  have he := toNat_unpackExponent x.toModel.toBits.toBitVec
  have hs := isMinus_ofBitVec (@unpackSign .binary64 x.toModel.toBits.toBitVec)
  rw [toNat_unpackSign] at hs
  have htop : ∀ v : BitVec 11, v = -1#11 ↔ v.toNat = 2 ^ 11 - 1 := fun v => by
    rw [← BitVec.toNat_inj]
    rfl
  have hnone : ∀ {w : Nat} (v : BitVec w), v = 0#w ↔ v.toNat = 0 := fun v => by
    rw [← BitVec.toNat_inj, BitVec.toNat_zero]
  unfold exact Float.Model.unpack UnpackedFloat.unpack
  have hbits : x.toBits.toNat = x.toModel.toBits.toBitVec.toNat := rfl
  simp only [hbits, Nat.pow_eq, ← hm, ← he, ← hs]
  -- The cases are those of the fields: the greatest exponent, the least one, and all between.
  split
  · rename_i h
    rw [if_pos ((htop _).2 h)]
    split
    · rename_i hz
      rw [if_pos ((hnone _).2 hz)]
      rfl
    · rename_i hz
      rw [if_neg (mt (hnone _).1 hz)]
      rfl
  · rename_i h
    rw [if_neg (mt (htop _).1 h)]
    split
    · rename_i h0
      rw [if_pos ((hnone _).2 h0)]
      split
      · rename_i hz
        rw [(hnone _).1 hz]
        rfl
      · rw [h0]
        rfl
    · rename_i h0
      rw [if_neg (mt (hnone _).1 h0)]
      simp only [Exact.ofUnpacked, toNat_implicit]
      rfl

/-! ## Packing -/

theorem unpack_pack_infinity (sign : Sign) : (Float.Model.pack (.infinity sign)).unpack = .infinity sign := by
  cases sign <;> rfl

/-- A mantissa of 53 bits is packed without loss, unless the exponent is too great. -/
theorem unpack_pack_finite (sign : Sign) {m : Nat} {e : Int} (hm : m.log2 = 52) (he : -1074 ≤ e) (h : 0 < m) :
    (Float.Model.pack (.finite sign m e h)).unpack = if e ≤ 971 then .finite sign m e h else .infinity sign := by
  have hbounds := (Nat.log2_eq_iff (Nat.ne_of_gt h)).1 hm
  have hbiased : (e + Format.binary64.exponentBias + Format.binary64.mantissaBitsWithoutImplicit).toNat =
      (e + 1075).toNat := by
    rw [Int.add_assoc]
    rfl
  unfold Float.Model.unpack Float.Model.pack UnpackedFloat.pack
  dsimp only
  rw [hbiased, hm, if_pos (show 52 + 1 = Format.binary64.mantissaBits from rfl)]
  split
  · rename_i htop
    have htop : 2 ^ 11 ≤ (e + 1075).toNat + 1 := htop
    rw [if_neg (by omega)]
    exact unpack_pack_infinity sign
  · rename_i htop
    have htop : ¬2 ^ 11 ≤ (e + 1075).toNat + 1 := htop
    rw [if_pos (by omega)]
    have hexponent : (BitVec.ofNat 11 (e + 1075).toNat).toNat = (e + 1075).toNat := by
      rw [BitVec.toNat_ofNat]
      exact Nat.mod_eq_of_lt (by omega)
    have hmantissa : (1#1 ++ BitVec.ofNat 52 m).toNat = m := by
      rw [toNat_implicit, BitVec.toNat_ofNat]
      omega
    have hnottop : BitVec.ofNat 11 (e + 1075).toNat ≠ -1#11 := by
      intro h
      have h := congrArg BitVec.toNat h
      rw [hexponent] at h
      have h : (e + 1075).toNat = 2 ^ 11 - 1 := h
      omega
    have hnotbottom : BitVec.ofNat 11 (e + 1075).toNat ≠ 0#11 := by
      intro h
      have h := congrArg BitVec.toNat h
      rw [hexponent, BitVec.toNat_zero] at h
      omega
    unfold UnpackedFloat.unpack
    simp only [unpackExponent_packComponents, unpackMantissa_packComponents, unpackSign_packComponents,
      Sign.ofBitVec_toBitVec, if_neg hnottop, if_neg hnotbottom, hexponent, hmantissa]
    congr 1
    show ((e + 1075).toNat : Int) - 1075 = e
    omega

/-! ## Rounding -/

theorem mantissa_shiftRight (em : ExtendedMantissa) (k : Nat) : (em >>> k).mantissa = em.mantissa / 2 ^ k := by
  induction k with
  | zero => exact (Nat.div_one _).symm
  | succ k ih =>
    show (em >>> k).mantissa / 2 = em.mantissa / 2 ^ (k + 1)
    rw [ih, Nat.div_div_eq_div_mul, Nat.pow_succ]

/-- Zeros are shifted out without loss. -/
theorem shiftRight_exact (m k : Nat) :
    ExtendedMantissa.ofMantissaAndAccuracy (m * 2 ^ k) .exact >>> k = .ofMantissaAndAccuracy m .exact := by
  induction k generalizing m with
  | zero =>
    rw [Nat.pow_zero, Nat.mul_one]
    rfl
  | succ k ih =>
    have hpow : m * 2 ^ (k + 1) = m * 2 * 2 ^ k := by ring
    show (ExtendedMantissa.ofMantissaAndAccuracy (m * 2 ^ (k + 1)) .exact >>> k).shiftRightOne = _
    rw [hpow, ih (m * 2)]
    simp [ExtendedMantissa.ofMantissaAndAccuracy, ExtendedMantissa.shiftRightOne]

theorem roundedMantissa_bounds (em : ExtendedMantissa) :
    em.mantissa ≤ em.roundedMantissa ∧ em.roundedMantissa ≤ em.mantissa + 1 := by
  obtain ⟨m, round, sticky⟩ := em
  cases round <;> cases sticky <;>
    simp only [ExtendedMantissa.roundedMantissa, ExtendedMantissa.accuracy, Accuracy.roundToNearestEven] <;> omega

theorem log2_mul_pow {m : Nat} (h : 0 < m) (k : Nat) : (m * 2 ^ k).log2 = m.log2 + k := by
  obtain ⟨hle, hlt⟩ := (Nat.log2_eq_iff (Nat.ne_of_gt h)).1 rfl
  refine (Nat.log2_eq_iff (Nat.ne_of_gt (Nat.mul_pos h (Nat.two_pow_pos k)))).2 ⟨?_, ?_⟩
  · rw [Nat.pow_add]
    exact Nat.mul_le_mul_right _ hle
  · rw [Nat.add_right_comm, Nat.pow_add]
    exact Nat.mul_lt_mul_of_pos_right hlt (Nat.two_pow_pos k)

section Round

variable (sign : Sign) {m k : Nat} {e : Int}

/-- Above the least exponent, a mantissa of 53 bits or more is shifted to 53 bits. -/
theorem shiftToTargetExponent_eq (hm : m.log2 = 52 + k) (he : -1074 ≤ e + k) :
    shiftToTargetExponent .binary64 m e .exact = (ExtendedMantissa.ofMantissaAndAccuracy m .exact >>> k, e + k) := by
  have htarget : Format.binary64.targetExponent (totalExponent m e) = e + k := by
    show max ((m.log2 : Int) + 1 + e - 53) (-1074) = e + k
    omega
  have hamount : (e + k - e).toNat = k := by omega
  unfold shiftToTargetExponent shiftToExponent
  simp only [htarget, hamount]

/-- If the rounded mantissa has 53 bits and then zeros, the result has the 53 bits. -/
theorem roundWithAccuracy_eq {m' j : Nat} {e' : Int} {em : ExtendedMantissa}
    (hshift : shiftToTargetExponent .binary64 m e .exact = (em, e')) (hr : em.roundedMantissa = m' * 2 ^ j)
    (hm : m'.log2 = 52) (he : -1074 ≤ e' + j) (h : 0 < m') :
    roundWithAccuracy .binary64 sign m e .exact = .finite sign m' (e' + j) h := by
  have hlog : (m' * 2 ^ j).log2 = 52 + j := by rw [log2_mul_pow h, hm]
  unfold roundWithAccuracy
  simp only [hshift, hr, shiftToTargetExponent_eq hlog he, shiftRight_exact]
  exact dif_neg (Nat.ne_of_gt h)

/-- What has 53 bits and then zeros is not changed by rounding. -/
theorem round_exact (hm : m.log2 = 52) (he : -1074 ≤ e + k) (h : 0 < m) :
    roundWithAccuracy .binary64 sign (m * 2 ^ k) e .exact = .finite sign m (e + k) h := by
  have hlog : (m * 2 ^ k).log2 = 52 + k := by rw [log2_mul_pow h, hm]
  have hshift := shiftToTargetExponent_eq hlog he
  rw [shiftRight_exact] at hshift
  have hround := roundWithAccuracy_eq sign (j := 0) hshift (Nat.mul_one m).symm hm (by omega) h
  simpa using hround

/-- **Rounding gives 53 bits.** -/
theorem exists_round (hm : m.log2 = 52 + k) (he : -1074 ≤ e + k) :
    ∃ (m' : Nat) (e' : Int) (h : 0 < m'), roundWithAccuracy .binary64 sign m e .exact = .finite sign m' e' h ∧
      m'.log2 = 52 ∧ -1074 ≤ e' := by
  have hpos : m ≠ 0 := by
    rintro rfl
    rw [Nat.log2_zero] at hm
    omega
  obtain ⟨hle, hlt⟩ := (Nat.log2_eq_iff hpos).1 hm
  have hfloor : 2 ^ 52 ≤ m / 2 ^ k ∧ m / 2 ^ k < 2 ^ 53 := by
    constructor
    · rw [Nat.le_div_iff_mul_le (Nat.two_pow_pos k), ← Nat.pow_add]
      exact hle
    · rw [Nat.div_lt_iff_lt_mul (Nat.two_pow_pos k), ← Nat.pow_add, show 53 + k = 52 + k + 1 by omega]
      exact hlt
  have hshift := shiftToTargetExponent_eq hm he
  obtain ⟨hlow, hhigh⟩ := roundedMantissa_bounds (ExtendedMantissa.ofMantissaAndAccuracy m .exact >>> k)
  have hmantissa : (ExtendedMantissa.ofMantissaAndAccuracy m .exact >>> k).mantissa = m / 2 ^ k :=
    mantissa_shiftRight _ k
  rw [hmantissa] at hlow hhigh
  rcases Nat.lt_or_ge (ExtendedMantissa.ofMantissaAndAccuracy m .exact >>> k).roundedMantissa (2 ^ 53) with hr | hr
  · have hr' : 0 < (ExtendedMantissa.ofMantissaAndAccuracy m .exact >>> k).roundedMantissa := by omega
    have hlog := (Nat.log2_eq_iff (Nat.ne_of_gt hr')).2 ⟨Nat.le_trans hfloor.1 hlow, hr⟩
    exact ⟨_, _, hr', roundWithAccuracy_eq sign (j := 0) hshift (Nat.mul_one _).symm hlog (by omega) hr', hlog, by omega⟩
  · -- The mantissa was rounded up to the next power of two.
    have hr' : (ExtendedMantissa.ofMantissaAndAccuracy m .exact >>> k).roundedMantissa = 2 ^ 52 * 2 ^ 1 := by omega
    exact ⟨2 ^ 52, _, by decide, roundWithAccuracy_eq sign (j := 1) hshift hr' Nat.log2_two_pow (by omega) (by decide),
      Nat.log2_two_pow, by omega⟩

end Round

/-! ## Natural numbers as doubles -/

section Naturals

variable {n : Nat}

/-- A natural number below `2 ^ 53`, followed by as many zeros as it takes to 53 bits. -/
theorem log2_filled (h : 0 < n) (hn : n < 2 ^ 53) : (n * 2 ^ (52 - n.log2)).log2 = 52 := by
  have := (Nat.log2_lt (Nat.ne_of_gt h)).2 hn
  rw [log2_mul_pow h]
  omega

theorem round_natural (h : 0 < n) (hn : n < 2 ^ 53) :
    UnpackedFloat.round .binary64 .positive n 0 =
      .finite .positive (n * 2 ^ (52 - n.log2)) ((n.log2 : Int) - 52) (Nat.mul_pos h (Nat.two_pow_pos _)) := by
  have hlt := (Nat.log2_lt (Nat.ne_of_gt h)).2 hn
  have htarget : Format.binary64.targetExponent (totalExponent n 0) = (n.log2 : Int) - 52 := by
    show max ((n.log2 : Int) + 1 + 0 - 53) (-1074) = (n.log2 : Int) - 52
    omega
  have hamount : (0 - ((n.log2 : Int) - 52)).toNat = 52 - n.log2 := by omega
  have hexponent : (0 : Int) - ((52 - n.log2 : Nat) : Int) = (n.log2 : Int) - 52 := by omega
  have hround := round_exact .positive (k := 0) (e := (n.log2 : Int) - 52) (log2_filled h hn) (by omega)
    (Nat.mul_pos h (Nat.two_pow_pos _))
  unfold UnpackedFloat.round decreaseExponent
  simp only [htarget, hamount, hexponent, Nat.shiftLeft_eq]
  simpa using hround

theorem unpack_toFloat (h : 0 < n) (hn : n < 2 ^ 53) :
    n.toUInt64.toFloat.toModel.unpack =
      .finite .positive (n * 2 ^ (52 - n.log2)) ((n.log2 : Int) - 52) (Nat.mul_pos h (Nat.two_pow_pos _)) := by
  have hlt := (Nat.log2_lt (Nat.ne_of_gt h)).2 hn
  have hto : n.toUInt64.toNat = n := by
    show n % 2 ^ 64 = n
    omega
  have hnormal : UnpackedFloat.normalize .binary64 (n : Int) 0 .positive =
      UnpackedFloat.round .binary64 .positive n 0 := by
    unfold UnpackedFloat.normalize
    rw [Int.compare_eq_gt.2 (Int.natCast_pos.2 h), Int.toNat_natCast]
  show (Float.Model.pack (UnpackedFloat.normalize .binary64 (n.toUInt64.toNat : Int) 0 .positive)).unpack = _
  rw [hto, hnormal, round_natural h hn, unpack_pack_finite _ (log2_filled h hn) (by omega), if_pos (by omega)]

/-- A natural number below `2 ^ 53` is multiplied by one on its way to a double. -/
theorem unpack_ofNat (h : 0 < n) (hn : n < 2 ^ 53) :
    (Float.ofNat n).toModel.unpack =
      .finite .positive (n * 2 ^ (52 - n.log2)) ((n.log2 : Int) - 52) (Nat.mul_pos h (Nat.two_pow_pos _)) := by
  have hlt := (Nat.log2_lt (Nat.ne_of_gt h)).2 hn
  have hpos := Nat.mul_pos h (Nat.two_pow_pos (52 - n.log2))
  have hone : (Float.ofBits 0x3FF0000000000000).toModel.unpack = .finite .positive (2 ^ 52) (-52) (by decide) := rfl
  have hmul : Float.ofNat n = n.toUInt64.toFloat * Float.ofBits 0x3FF0000000000000 :=
    dif_pos ⟨hn, Nat.zero_le 22⟩
  have hunpack : (Float.ofNat n).toModel.unpack = (Float.Model.pack (UnpackedFloat.mul .binary64
      n.toUInt64.toFloat.toModel.unpack (Float.ofBits 0x3FF0000000000000).toModel.unpack)).unpack := by
    rw [hmul]
    rfl
  have hround := round_exact .positive (k := 52) (e := (n.log2 : Int) - 52 + -52) (log2_filled h hn)
    (by omega) hpos
  have hexponent : (n.log2 : Int) - 52 + -52 + (52 : Nat) = (n.log2 : Int) - 52 := by omega
  rw [hunpack, unpack_toFloat h hn, hone]
  show (Float.Model.pack (roundWithAccuracy .binary64 .positive (n * 2 ^ (52 - n.log2) * 2 ^ 52)
    ((n.log2 : Int) - 52 + -52) .exact)).unpack = _
  simp only [hround, hexponent]
  rw [unpack_pack_finite _ (log2_filled h hn) (by omega), if_pos (by omega)]

/-- A natural number from `2 ^ 53` on is rounded to a double above zero, or is too great for one. -/
theorem unpack_ofNat_large (hn : 2 ^ 53 ≤ n) :
    (∃ (m : Nat) (e : Int) (h : 0 < m), (Float.ofNat n).toModel.unpack = .finite .positive m e h) ∨
      (Float.ofNat n).toModel.unpack = .infinity .positive := by
  have h : 0 < n := by omega
  have hlog := (Nat.le_log2 (Nat.ne_of_gt h)).2 hn
  have hof : Float.ofNat n = .ofModel (.ofScientific n 0) := dif_neg fun h => absurd h.1 (by omega)
  have hscientific : UnpackedFloat.ofScientific .binary64 n 0 =
      roundWithAccuracy .binary64 .positive (n * 2 ^ 53) (-53) .exact := by
    have hbits : Format.binary64.mantissaBits = 53 := rfl
    have hsign : (Sign.positive * Sign.positive : Sign) = .positive := rfl
    have hrange : ¬(0 : Int) < -((2 ^ Format.binary64.exponentBits : Int) + n.log2) := by
      show ¬(0 : Int) < -(2 ^ 11 + n.log2)
      omega
    unfold UnpackedFloat.ofScientific
    rw [dif_neg (Nat.ne_of_gt h), if_neg (by decide), if_neg hrange, if_pos (Int.le_refl 0)]
    simp [UnpackedFloat.mul, hbits, hsign, Nat.shiftLeft_eq]
  have hfilled : (n * 2 ^ 53).log2 = 52 + (n.log2 + 1) := by
    rw [log2_mul_pow h]
    omega
  obtain ⟨m, e, hm, hround, hlog', he⟩ := exists_round .positive (e := -53) hfilled (by omega)
  have hunpack : (Float.ofNat n).toModel.unpack = (Float.Model.pack (.finite .positive m e hm)).unpack := by
    rw [hof, ← hround, ← hscientific]
    rfl
  rw [hunpack, unpack_pack_finite _ hlog' he]
  split
  · exact Or.inl ⟨m, e, hm, rfl⟩
  · exact Or.inr rfl

/-- **A natural number below `2 ^ 53` is a double exactly.** -/
theorem exact_ofNat (h : 0 < n) (hn : n < 2 ^ 53) :
    exact (Float.ofNat n) = .finite false (n * 2 ^ (52 - n.log2)) ((n.log2 : Int) - 52) := by
  rw [exact_eq, unpack_ofNat h hn]
  rfl

end Naturals

/-! ## Comparing with zero -/

section Zero

variable {x : Float}

theorem isNaN_iff : x.isNaN = true ↔ exact x = .nan := by
  rw [exact_eq]
  show x.toModel.unpack.isNaN = true ↔ _
  cases x.toModel.unpack with
  | notANumber => exact ⟨fun _ => rfl, fun _ => rfl⟩
  | infinity | zero | finite => exact ⟨fun h => (by cases h), fun h => (by cases h)⟩

theorem unpack_zero : (0.0 : Float).toModel.unpack = .zero .positive := rfl

/-- What is a number and not below zero is at least zero. -/
theorem zero_le_iff : (0.0 : Float) ≤ x ↔ exact x ≠ .nan ∧ isNegative x = false := by
  have hle : (0.0 : Float) ≤ x ↔ (UnpackedFloat.zero .positive).le x.toModel.unpack = true := by
    rw [← unpack_zero]
    exact decide_eq_true_iff
  rw [hle, isNegative, exact_eq]
  cases x.toModel.unpack with
  | notANumber => decide
  | infinity sign => cases sign <;> decide
  | zero sign => cases sign <;> decide
  | finite sign m e h =>
    have hm : m ≠ 0 := Nat.ne_of_gt h
    cases sign with
    | positive =>
      show true = true ↔ Exact.finite false m e ≠ .nan ∧ (false && m != 0) = false
      simp
    | negative =>
      show false = true ↔ Exact.finite true m e ≠ .nan ∧ (true && m != 0) = false
      simp [hm]

/-- What is below zero or is zero is at most zero. -/
theorem le_zero_iff : x ≤ (0.0 : Float) ↔ isNegative x = true ∨ ∃ negative q, exact x = .finite negative 0 q := by
  have hle : x ≤ (0.0 : Float) ↔ x.toModel.unpack.le (UnpackedFloat.zero .positive) = true := by
    rw [← unpack_zero]
    exact decide_eq_true_iff
  rw [hle, isNegative, exact_eq]
  cases x.toModel.unpack with
  | notANumber =>
    show false = true ↔ false = true ∨ ∃ negative q, Exact.nan = .finite negative 0 q
    simp
  | infinity sign =>
    cases sign with
    | positive =>
      show false = true ↔ false = true ∨ ∃ negative q, Exact.infinite false = .finite negative 0 q
      simp
    | negative => exact ⟨fun _ => Or.inl rfl, fun _ => rfl⟩
  | zero sign => exact ⟨fun _ => Or.inr ⟨_, _, rfl⟩, fun _ => rfl⟩
  | finite sign m e h =>
    have hm : m ≠ 0 := Nat.ne_of_gt h
    cases sign with
    | positive =>
      show false = true ↔ (false && m != 0) = true ∨ ∃ negative q, Exact.finite false m e = .finite negative 0 q
      simp [hm]
    | negative =>
      show true = true ↔ (true && m != 0) = true ∨ ∃ negative q, Exact.finite true m e = .finite negative 0 q
      simp [hm]

theorem beq_zero_iff : (x == 0.0) = true ↔ ∃ negative q, exact x = .finite negative 0 q := by
  have hbeq : (x == 0.0) = x.toModel.unpack.beq (UnpackedFloat.zero .positive) := by
    rw [← unpack_zero]
    rfl
  rw [hbeq, exact_eq]
  cases x.toModel.unpack with
  | notANumber =>
    show false = true ↔ ∃ negative q, Exact.nan = .finite negative 0 q
    simp
  | infinity sign =>
    have hbeq : (UnpackedFloat.infinity sign).beq (.zero .positive) = false := by cases sign <;> rfl
    rw [hbeq]
    simp [Exact.ofUnpacked]
  | zero sign => exact ⟨fun _ => ⟨_, _, rfl⟩, fun _ => rfl⟩
  | finite sign m e h =>
    have hm : m ≠ 0 := Nat.ne_of_gt h
    have hbeq : (UnpackedFloat.finite sign m e h).beq (.zero .positive) = false := by cases sign <;> rfl
    rw [hbeq]
    show false = true ↔ ∃ negative q, Exact.finite (isMinus sign) m e = .finite negative 0 q
    simp [hm]

/-- A natural number other than zero is above zero as a double. -/
theorem exact_ofNat_pos {n : Nat} (h : 0 < n) :
    (∃ m q, 0 < m ∧ exact (Float.ofNat n) = .finite false m q) ∨ exact (Float.ofNat n) = .infinite false := by
  rcases Nat.lt_or_ge n (2 ^ 53) with hn | hn
  · exact Or.inl ⟨_, _, Nat.mul_pos h (Nat.two_pow_pos _), exact_ofNat h hn⟩
  · rw [exact_eq]
    rcases unpack_ofNat_large hn with ⟨m, e, hm, hu⟩ | hu
    · exact Or.inl ⟨m, e, hm, by rw [hu]; rfl⟩
    · exact Or.inr (by rw [hu]; rfl)

/-- **No natural number is below zero as a double.** -/
theorem zero_le_ofNat (n : Nat) : (0.0 : Float) ≤ Float.ofNat n := by
  rcases Nat.eq_zero_or_pos n with rfl | h
  · decide
  · rw [zero_le_iff, isNegative]
    rcases exact_ofNat_pos h with ⟨m, q, -, he⟩ | he <;> simp [he]

/-- **Only zero is zero as a double.** -/
theorem ofNat_beq_zero_iff (n : Nat) : (Float.ofNat n == 0.0) = true ↔ n = 0 := by
  rcases Nat.eq_zero_or_pos n with rfl | h
  · decide
  · have hne : n ≠ 0 := Nat.ne_of_gt h
    rw [beq_zero_iff]
    rcases exact_ofNat_pos h with ⟨m, q, hm, he⟩ | he
    · have : m ≠ 0 := Nat.ne_of_gt hm
      simp [he, hne, this]
    · simp [he, hne]

end Zero

end StepScript.Number
