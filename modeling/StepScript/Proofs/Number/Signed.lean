import StepScript.Number.Read
import StepScript.Proofs.Number.Doubles

/-!
# Doubles with a sign

Every double but the one that is no number has a sign. Rounding and packing keep it (`Signed.unpack_pack`), so sums and
products without a minus are numbers however great they get, with the one exception of zero times infinity; in
particular, the value of a decimal is a number (`hasSign_value`).
-/

namespace StepScript.Number

open Float.Model Float.Model.UnpackedFloat

/-- What is taken apart is a number, and has the sign. -/
inductive Signed (sign : Sign) : UnpackedFloat → Prop
  | infinity : Signed sign (.infinity sign)
  | zero : Signed sign (.zero sign)
  | finite {m : Nat} {e : Int} (h : 0 < m) : Signed sign (.finite sign m e h)

variable {s s' : Sign} {u v : UnpackedFloat}

theorem signed_roundWithAccuracy (sign : Sign) (m : Nat) (e : Int) (accuracy : Accuracy) :
    Signed sign (roundWithAccuracy .binary64 sign m e accuracy) := by
  unfold roundWithAccuracy
  dsimp only
  split
  · exact .zero
  · exact .finite _

/-- What is packed with an exponent that is not the greatest is a number. -/
theorem signed_packComponents (sign : Sign) {exponent : BitVec 11} (he : exponent ≠ -1#11) (mantissa : BitVec 52) :
    Signed sign (UnpackedFloat.unpack .binary64 (packComponents .binary64 sign exponent mantissa)) := by
  unfold UnpackedFloat.unpack
  simp only [unpackExponent_packComponents, unpackMantissa_packComponents, unpackSign_packComponents,
    Sign.ofBitVec_toBitVec, if_neg he]
  split
  · split
    · exact .zero
    · exact .finite _
  · exact .finite _

theorem Signed.unpack_pack (h : Signed s u) : Signed s (Float.Model.pack u).unpack := by
  cases h with
  | infinity => rw [unpack_pack_infinity]; exact .infinity
  | zero => exact signed_packComponents s (by decide) 0
  | @finite m e h =>
    show Signed s (UnpackedFloat.unpack .binary64 (UnpackedFloat.pack .binary64 (.finite s m e h)))
    unfold UnpackedFloat.pack
    dsimp only
    split
    · have hinfinity := unpack_pack_infinity s
      rw [show UnpackedFloat.unpack .binary64 (packedInfinity .binary64 s) = .infinity s from hinfinity]
      exact .infinity
    · rename_i htop
      generalize (e + Format.binary64.exponentBias + Format.binary64.mantissaBitsWithoutImplicit).toNat = biased at htop
      have htop : ¬ 2 ^ 11 ≤ biased + 1 := htop
      split
      · refine signed_packComponents s (fun h => ?_) _
        have h : biased % 2 ^ 11 = 2 ^ 11 - 1 := by simpa using congrArg BitVec.toNat h
        omega
      · exact signed_packComponents s (by decide) _

theorem Signed.mul {m : Nat} {e : Int} (hm : 0 < m) (h : Signed s' u) :
    Signed (s * s') (UnpackedFloat.mul .binary64 (.finite s m e hm) u) := by
  cases h with
  | infinity => exact .infinity
  | zero => exact .zero
  | finite => exact signed_roundWithAccuracy _ _ _ _

theorem Signed.mul_finite {m : Nat} {e : Int} (h : Signed s u) (hm : 0 < m) :
    Signed (s * s') (UnpackedFloat.mul .binary64 u (.finite s' m e hm)) := by
  cases h with
  | infinity => exact .infinity
  | zero => exact .zero
  | finite => exact signed_roundWithAccuracy _ _ _ _

theorem Signed.div_finite {m : Nat} {e : Int} (h : Signed s u) (hm : 0 < m) :
    Signed (s / s') (UnpackedFloat.div .binary64 u (.finite s' m e hm)) := by
  cases h with
  | infinity => exact .infinity
  | zero => exact .zero
  | finite => exact signed_roundWithAccuracy _ _ _ _

theorem Signed.add (hu : Signed .positive u) (hv : Signed .positive v) :
    Signed .positive (UnpackedFloat.add .binary64 u v) := by
  cases hu with
  | infinity => cases hv <;> exact .infinity
  | zero =>
    cases hv with
    | infinity => exact .infinity
    | zero => exact .zero
    | finite h => exact .finite h
  | @finite m e h =>
    cases hv with
    | infinity => exact .infinity
    | zero => exact .finite h
    | @finite m' e' h' =>
      show Signed .positive (UnpackedFloat.normalize .binary64
        ((decreaseExponent m e (min e e')).1 + (decreaseExponent m' e' (min e e')).1) (min e e') .positive)
      unfold UnpackedFloat.normalize
      split
      · rename_i hlt
        rw [Int.compare_eq_lt] at hlt
        omega
      · exact .zero
      · exact signed_roundWithAccuracy _ _ _ _

theorem Signed.isNaN (h : Signed s u) : u.isNaN = false := by
  cases h <;> rfl

theorem signed_ofScientific (m : Nat) (e : Int) : Signed .positive (UnpackedFloat.ofScientific .binary64 m e) := by
  unfold UnpackedFloat.ofScientific
  split
  · exact .zero
  · split
    · exact .infinity
    · split
      · exact .zero
      · split
        · exact signed_roundWithAccuracy _ _ _ _
        · exact signed_roundWithAccuracy _ _ _ _

/-! ## The same of doubles -/

variable {x y : Float}

/-- The double is a number, and has the sign. -/
def HasSign (sign : Sign) (x : Float) : Prop := Signed sign x.toModel.unpack

/-- The double is a number other than zero, with the sign and not infinite. -/
def Regular (sign : Sign) (x : Float) : Prop :=
  ∃ (m : Nat) (e : Int) (h : 0 < m), x.toModel.unpack = .finite sign m e h

theorem HasSign.isNaN (h : HasSign s x) : x.isNaN = false := Signed.isNaN h

theorem HasSign.add (hx : HasSign .positive x) (hy : HasSign .positive y) : HasSign .positive (x + y) :=
  (Signed.add hx hy).unpack_pack

theorem HasSign.mul_regular (hx : HasSign s x) (hy : Regular s' y) : HasSign (s * s') (x * y) := by
  obtain ⟨m, e, h, hy⟩ := hy
  show Signed (s * s') (Float.Model.pack (UnpackedFloat.mul .binary64 x.toModel.unpack y.toModel.unpack)).unpack
  rw [hy]
  exact (Signed.mul_finite hx h).unpack_pack

theorem HasSign.div_regular (hx : HasSign s x) (hy : Regular s' y) : HasSign (s / s') (x / y) := by
  obtain ⟨m, e, h, hy⟩ := hy
  show Signed (s / s') (Float.Model.pack (UnpackedFloat.div .binary64 x.toModel.unpack y.toModel.unpack)).unpack
  rw [hy]
  exact (Signed.div_finite hx h).unpack_pack

theorem Regular.mul (hx : Regular s x) (hy : HasSign s' y) : HasSign (s * s') (x * y) := by
  obtain ⟨m, e, h, hx⟩ := hx
  show Signed (s * s') (Float.Model.pack (UnpackedFloat.mul .binary64 x.toModel.unpack y.toModel.unpack)).unpack
  rw [hx]
  exact (Signed.mul h hy).unpack_pack

theorem hasSign_zero : HasSign .positive 0.0 := by
  show Signed .positive (0.0 : Float).toModel.unpack
  rw [unpack_zero]
  exact .zero

theorem regular_ofNat {n : Nat} (h : 0 < n) (hn : n < 2 ^ 53) : Regular .positive (Float.ofNat n) :=
  ⟨_, _, _, unpack_ofNat h hn⟩

theorem hasSign_ofModel (h : Signed s u) : HasSign s (.ofModel (.pack u)) := h.unpack_pack

/-- The powers of ten that are doubles exactly. -/
theorem regular_powersOfTen : ∀ p ∈ Float.exactlyRepresentablePowersOfTen.toList, Regular .positive p := by
  simp only [Float.exactlyRepresentablePowersOfTen, List.forall_mem_cons]
  refine ⟨?_, ?_, ?_, ?_, ?_, ?_, ?_, ?_, ?_, ?_, ?_, ?_, ?_, ?_, ?_, ?_, ?_, ?_, ?_, ?_, ?_, ?_, ?_, nofun⟩
  all_goals exact ⟨_, _, _, rfl⟩

theorem hasSign_toFloat {n : Nat} (hn : n < 2 ^ 53) : HasSign .positive n.toUInt64.toFloat := by
  rcases Nat.eq_zero_or_pos n with rfl | h
  · exact hasSign_zero
  · show Signed .positive n.toUInt64.toFloat.toModel.unpack
    rw [unpack_toFloat h hn]
    exact .finite _

/-- A number in scientific notation is a number. -/
theorem hasSign_ofScientific (m : Nat) (down : Bool) (e : Nat) : HasSign .positive (Float.ofScientific m down e) := by
  unfold Float.ofScientific
  split
  · rename_i h
    have hlt : e < Float.exactlyRepresentablePowersOfTen.size := Nat.lt_succ_of_le h.2
    have hpower : Regular .positive Float.exactlyRepresentablePowersOfTen[e] :=
      regular_powersOfTen _ (Array.getElem_mem_toList _)
    cases down with
    | true => exact (hasSign_toFloat h.1).div_regular hpower
    | false => exact (hasSign_toFloat h.1).mul_regular hpower
  · exact hasSign_ofModel (signed_ofScientific _ _)

theorem hasSign_ofNat (n : Nat) : HasSign .positive (Float.ofNat n) := hasSign_ofScientific n false 0

theorem hasSign_infinity : HasSign .positive infinity := by
  show Signed .positive infinity.toModel.unpack
  rw [show infinity.toModel.unpack = .infinity .positive from rfl]
  exact .infinity

/-- **The value of a decimal is a number.** -/
theorem hasSign_value (d : Decimal) : HasSign .positive d.value := by
  unfold Decimal.value ofDecimal
  dsimp only
  split
  · exact hasSign_zero
  · split
    · exact hasSign_infinity
    · split
      · exact hasSign_zero
      · exact hasSign_ofScientific _ _ _

end StepScript.Number
