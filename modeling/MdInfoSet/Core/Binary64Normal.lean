import Mathlib
import MdInfoSet.Core.Binary64

/-!
# Positive normal binary64 numbers

`Float` is specified by a model that computes on mantissas and exponents and rounds the
result. Where a result is a normal number, its exponent is known up to one from the
exponents of the operands, which is enough to compare it with others.

* `IsNormal x e`: `x` is a positive number of 53 bits times `2 ^ e`.
* `isNormal_toFloat`, `isNormal_ofNat`: positive integers.
* `IsNormal.mul`, `IsNormal.div`: products and quotients.
* `IsNormal.pos`, `IsNormal.lt`: their order.
-/
namespace MdInfoSet.Binary64

open Float.Model Float.Model.UnpackedFloat

/-! ## The shape of a rounded number -/

/-- A positive number of 53 bits. -/
def Normal (u : UnpackedFloat) (e : ℤ) : Prop := ∃ m h, u = .finite .positive m e h ∧ m.log2 = 52

theorem log2_bounds {m k : Nat} (h : m.log2 = k) (hk : 0 < k) : 2 ^ k ≤ m ∧ m < 2 ^ (k + 1) := by
  have hm : m ≠ 0 := by
    rintro rfl
    simp at h
    omega
  exact (Nat.log2_eq_iff hm).mp h

theorem log2_div {m j k : Nat} (h : m.log2 = j + k) (hj : 0 < j) : (m / 2 ^ k).log2 = j := by
  obtain ⟨hlo, hhi⟩ := log2_bounds h (by omega)
  have hk : 0 < 2 ^ k := Nat.two_pow_pos k
  have hlo' : 2 ^ j ≤ m / 2 ^ k := by
    rw [Nat.le_div_iff_mul_le hk, ← Nat.pow_add]
    exact hlo
  have hhi' : m / 2 ^ k < 2 ^ (j + 1) := by
    rw [Nat.div_lt_iff_lt_mul hk, ← Nat.pow_add]
    exact (show j + 1 + k = j + k + 1 by omega) ▸ hhi
  have hpos := Nat.two_pow_pos j
  exact (Nat.log2_eq_iff (by omega)).mpr ⟨hlo', hhi'⟩

/-- A number between two powers of two that are two bits apart. -/
theorem exists_log2 {m k : Nat} (hlo : 2 ^ k ≤ m) (hhi : m < 2 ^ (k + 2)) : ∃ j, m.log2 = k + j ∧ j ≤ 1 := by
  have hne : m ≠ 0 := by
    have := Nat.two_pow_pos k
    omega
  have hle : k ≤ m.log2 := (Nat.le_log2 hne).mpr hlo
  have hlt : m.log2 < k + 2 := (Nat.log2_lt hne).mpr hhi
  exact ⟨m.log2 - k, by omega, by omega⟩

theorem log2_mul_pow {m : Nat} (hm : m ≠ 0) (k : Nat) : (m * 2 ^ k).log2 = m.log2 + k := by
  induction k with
  | zero => simp
  | succ k ih =>
    rw [Nat.pow_succ, Nat.mul_comm (2 ^ k), ← Nat.mul_assoc, Nat.mul_comm m, Nat.mul_assoc, Nat.log2_two_mul, ih]
    · omega
    · exact Nat.mul_ne_zero hm (Nat.two_pow_pos k).ne'

theorem shiftRight_mantissa (em : ExtendedMantissa) (k : Nat) : (em >>> k).mantissa = em.mantissa / 2 ^ k := by
  induction k with
  | zero => exact (Nat.div_one _).symm
  | succ k ih =>
    rw [Nat.pow_succ, ← Nat.div_div_eq_div_mul, ← ih]
    rfl

theorem ofMantissaAndAccuracy_mantissa (m : Nat) (acc : Accuracy) :
    (ExtendedMantissa.ofMantissaAndAccuracy m acc).mantissa = m := by
  rcases acc with _ | (_ | _ | _) <;> rfl

/-- Rounding goes up by one or not at all. -/
theorem roundedMantissa_eq (em : ExtendedMantissa) :
    em.roundedMantissa = em.mantissa ∨ em.roundedMantissa = em.mantissa + 1 := by
  rcases em with ⟨m, _ | _, _ | _⟩
  · exact .inl rfl
  · exact .inl rfl
  · have := Nat.mod_two_eq_zero_or_one m
    show m + m % 2 = m ∨ m + m % 2 = m + 1
    omega
  · exact .inr rfl

/-- The bits beyond 53 are shifted out. -/
theorem shiftToTargetExponent_eq {m k : Nat} {e : ℤ} (acc : Accuracy) (hm : m.log2 = 52 + k) (he : -1074 ≤ e + k) :
    shiftToTargetExponent .binary64 m e acc = (ExtendedMantissa.ofMantissaAndAccuracy m acc >>> k, e + k) := by
  have htarget : Format.binary64.targetExponent (totalExponent m e) = e + k := by
    simp [Format.targetExponent, totalExponent, Format.mantissaBits, Format.minExponent, hm]
    omega
  have hshift : (e + k - e).toNat = k := by omega
  rw [shiftToTargetExponent, htarget, shiftToExponent, hshift]

/-- A number with at least 53 bits is rounded to 53, and at most doubled by the carry. -/
theorem roundWithAccuracy_normal {m k : Nat} {e : ℤ} (acc : Accuracy) (hm : m.log2 = 52 + k) (he : -1074 ≤ e + k) :
    ∃ d, Normal (roundWithAccuracy .binary64 .positive m e acc) d ∧ e + k ≤ d ∧ d ≤ e + k + 1 := by
  generalize hem : ExtendedMantissa.ofMantissaAndAccuracy m acc >>> k = em
  have hfirst : shiftToTargetExponent .binary64 m e acc = (em, e + k) := by
    rw [shiftToTargetExponent_eq acc hm he, hem]
  have hlog : em.mantissa.log2 = 52 := by
    rw [← hem, shiftRight_mantissa, ofMantissaAndAccuracy_mantissa]
    exact log2_div hm (by decide)
  -- the carry makes at most one bit more
  obtain ⟨j, hj, hj1⟩ : ∃ j, em.roundedMantissa.log2 = 52 + j ∧ j ≤ 1 := by
    obtain ⟨hlo, hhi⟩ := log2_bounds hlog (by decide)
    have hcarry := roundedMantissa_eq em
    exact exists_log2 (by omega) (by omega)
  have hlast : (em.roundedMantissa / 2 ^ j).log2 = 52 := log2_div hj (by decide)
  have hpos : em.roundedMantissa / 2 ^ j ≠ 0 := by
    intro h
    rw [h] at hlast
    exact absurd hlast (by decide)
  have hshift := shiftToTargetExponent_eq .exact hj (show -1074 ≤ e + k + j by omega)
  have hmantissa : (ExtendedMantissa.ofMantissaAndAccuracy em.roundedMantissa .exact >>> j).mantissa =
      em.roundedMantissa / 2 ^ j := shiftRight_mantissa _ _
  refine ⟨e + k + j, ⟨em.roundedMantissa / 2 ^ j, Nat.pos_of_ne_zero hpos, ?_, hlast⟩, by omega, by omega⟩
  simp only [roundWithAccuracy, hfirst, hshift, hmantissa, dif_neg hpos]

/-! ## Floats -/

/-- `x` is a positive number of 53 bits times `2 ^ e`. -/
def IsNormal (x : Float) (e : ℤ) : Prop := Normal x.toModel.unpack e

theorem unpackSign_packComponents {spec : Format} {sign exponent mantissa} :
    unpackSign (packComponents spec sign exponent mantissa) = sign.toBitVec := by
  ext i hi
  obtain rfl : i = 0 := by omega
  simp [unpackSign, packComponents, BitVec.getLsbD_append]
  grind

/-- A number of 53 bits is unpacked as it was packed, with either sign. -/
theorem unpack_pack_finite (sign : Sign) {m : Nat} {e : ℤ} (hpos : 0 < m) (hlog : m.log2 = 52) (hlo : -1074 ≤ e)
    (hhi : e ≤ 971) : (Float.Model.pack (.finite sign m e hpos)).unpack = .finite sign m e hpos := by
  obtain ⟨hmlo, hmhi⟩ := log2_bounds hlog (by decide)
  obtain ⟨b, hb⟩ : ∃ b : Nat, e + 1023 + 52 = b := ⟨(e + 1075).toNat, by omega⟩
  have hpack : UnpackedFloat.pack .binary64 (.finite sign m e hpos) =
      packComponents .binary64 sign (BitVec.ofNat 11 b) (BitVec.ofNat 52 m) := by
    have hbias : (e + (Format.binary64.exponentBias : ℕ) + (Format.binary64.mantissaBitsWithoutImplicit : ℕ)).toNat =
        b := by
      have hexp : Format.binary64.exponentBias = 1023 := rfl
      have hwidth : Format.binary64.mantissaBitsWithoutImplicit = 52 := rfl
      rw [hexp, hwidth]
      omega
    have hfits : ¬ 2 ^ Format.binary64.exponentBits ≤ b + 1 := by
      show ¬ 2 ^ 11 ≤ b + 1
      omega
    have hwide : m.log2 + 1 = Format.binary64.mantissaBits := by
      rw [hlog]
      rfl
    simp only [UnpackedFloat.pack, hbias]
    rw [if_neg hfits, if_pos hwide]
  show UnpackedFloat.unpack .binary64 (UnpackedFloat.pack .binary64 (.finite sign m e hpos)) = _
  rw [hpack]
  have hinf : BitVec.ofNat 11 b ≠ -1#_ := by
    intro h
    have := congrArg BitVec.toNat h
    simp at this
    omega
  have hsub : BitVec.ofNat 11 b ≠ 0#_ := by
    intro h
    have := congrArg BitVec.toNat h
    simp at this
    omega
  have hm : (1#1 ++ BitVec.ofNat 52 m).toNat = m := by
    rw [BitVec.toNat_append]
    rw [← Nat.shiftLeft_add_eq_or_of_lt (BitVec.isLt _)]
    simp
    omega
  simp only [UnpackedFloat.unpack, unpackMantissa_packComponents, unpackExponent_packComponents, if_neg hinf, if_neg hsub,
    unpackSign_packComponents, hm]
  congr 1
  · cases sign <;> rfl
  · simp [Format.exponentBias]
    omega

/-- What is packed is unpacked as it was. -/
theorem unpack_pack {u : UnpackedFloat} {e : ℤ} (hu : Normal u e) (hlo : -1074 ≤ e) (hhi : e ≤ 971) :
    (Float.Model.pack u).unpack = u := by
  obtain ⟨m, hpos, rfl, hlog⟩ := hu
  exact unpack_pack_finite .positive hpos hlog hlo hhi

theorem isNormal_pack {u : UnpackedFloat} {e : ℤ} (hu : Normal u e) (hlo : -1074 ≤ e) (hhi : e ≤ 971) :
    IsNormal (.ofModel (.pack u)) e := by
  show Normal (Float.Model.pack u).unpack e
  rwa [unpack_pack hu hlo hhi]

/-- A number of at least 53 bits, rounded. -/
theorem isNormal_round {m k : Nat} {e : ℤ} (acc : Accuracy) (hm : m.log2 = 52 + k) (hlo : -1074 ≤ e + k)
    (hhi : e + k + 1 ≤ 971) :
    ∃ d, IsNormal (.ofModel (.pack (roundWithAccuracy .binary64 .positive m e acc))) d ∧ e + k ≤ d ∧ d ≤ e + k + 1 := by
  obtain ⟨d, hd, h1, h2⟩ := roundWithAccuracy_normal acc hm hlo
  exact ⟨d, isNormal_pack hd (by omega) (by omega), h1, h2⟩

namespace IsNormal

variable {x y : Float} {e f : ℤ}

theorem isNum (hx : IsNormal x e) : IsNum x := by
  obtain ⟨m, h, hu, -⟩ := hx
  rw [IsNum, hu]
  exact nofun

theorem pos (hx : IsNormal x e) : 0 < x := by
  refine lt_iff.mpr ⟨nofun, hx.isNum, ?_⟩
  obtain ⟨m, h, hu, -⟩ := hx
  have hzero : key 0 = toLex (0, toLex (0, 0)) := rfl
  rw [hzero, key, hu]
  simp [unpackedKey, Prod.Lex.toLex_lt_toLex]

/-- The larger exponent makes the larger number. -/
theorem lt (hx : IsNormal x e) (hy : IsNormal y f) (hef : e < f) : x < y := by
  refine lt_iff.mpr ⟨hx.isNum, hy.isNum, ?_⟩
  obtain ⟨m, h, hu, -⟩ := hx
  obtain ⟨n, h', hv, -⟩ := hy
  rw [key, key, hu, hv]
  simp [unpackedKey, Prod.Lex.toLex_lt_toLex, hef]

/-- Its negation is not positive. -/
theorem neg_ne (hx : IsNormal x e) (hlo : -1074 ≤ e) (hhi : e ≤ 971) (hy : IsNormal y f) : -x ≠ y := by
  intro hneg
  obtain ⟨m, hm, hu, hlog⟩ := hx
  obtain ⟨n, hn, hv, -⟩ := hy
  have hunpack : (-x).toModel.unpack = .finite .negative m e hm := by
    show (Float.Model.pack x.toModel.unpack.neg).unpack = _
    rw [hu]
    exact unpack_pack_finite .negative hm hlog hlo hhi
  rw [hneg, hv] at hunpack
  cases hunpack

/-- A product of 53-bit numbers has 105 or 106 bits. -/
theorem mul (hx : IsNormal x e) (hy : IsNormal y f) (hlo : -1074 ≤ e + f + 52) (hhi : e + f + 54 ≤ 971) :
    ∃ d, IsNormal (x * y) d ∧ e + f + 52 ≤ d ∧ d ≤ e + f + 54 := by
  obtain ⟨m, hm, hu, hmlog⟩ := hx
  obtain ⟨n, hn, hv, hnlog⟩ := hy
  obtain ⟨hmlo, hmhi⟩ := log2_bounds hmlog (by decide)
  obtain ⟨hnlo, hnhi⟩ := log2_bounds hnlog (by decide)
  have hprod : x * y = .ofModel (.pack (roundWithAccuracy .binary64 .positive (m * n) (e + f) .exact)) := by
    show Float.ofModel (.pack (UnpackedFloat.mul .binary64 x.toModel.unpack y.toModel.unpack)) = _
    rw [hu, hv]
    rfl
  have hlow : 2 ^ 52 * 2 ^ 52 ≤ m * n := Nat.mul_le_mul hmlo hnlo
  have hhigh : m * n < 2 ^ 53 * 2 ^ 53 := Nat.mul_lt_mul'' hmhi hnhi
  obtain ⟨j, hj, hj1⟩ : ∃ j, (m * n).log2 = 104 + j ∧ j ≤ 1 := exists_log2 (by omega) (by omega)
  have hbits : (m * n).log2 = 52 + (52 + j) := by omega
  rw [hprod]
  obtain ⟨d, hd, h1, h2⟩ := isNormal_round .exact hbits (e := e + f) (by omega) (by omega)
  exact ⟨d, hd, by omega, by omega⟩

/-- A quotient of 53-bit numbers has 53 or 54 bits before the point that division stops at. -/
theorem div (hx : IsNormal x e) (hy : IsNormal y f) (hlo : -1074 ≤ e - f - 53) (hhi : e - f - 51 ≤ 971) :
    ∃ d, IsNormal (x / y) d ∧ e - f - 53 ≤ d ∧ d ≤ e - f - 51 := by
  obtain ⟨m, hm, hu, hmlog⟩ := hx
  obtain ⟨n, hn, hv, hnlog⟩ := hy
  obtain ⟨hmlo, hmhi⟩ := log2_bounds hmlog (by decide)
  obtain ⟨hnlo, hnhi⟩ := log2_bounds hnlog (by decide)
  have hcore : divCore .binary64 m e n f = (m * 2 ^ 53 / n, e - f - 53, accuracyOfFraction (m * 2 ^ 53 % n) n) := by
    have htarget : min (e - f) (Format.binary64.targetExponent (totalExponent m e - totalExponent n f)) = e - f - 53 := by
      simp [Format.targetExponent, totalExponent, Format.mantissaBits, Format.minExponent, hmlog, hnlog]
      omega
    have hshift : (e - f - (e - f - 53)).toNat = 53 := by omega
    simp only [divCore, htarget, hshift, Nat.shiftLeft_eq]
  have hquot : x / y = .ofModel (.pack (roundWithAccuracy .binary64 .positive (m * 2 ^ 53 / n) (e - f - 53)
      (accuracyOfFraction (m * 2 ^ 53 % n) n))) := by
    show Float.ofModel (.pack (UnpackedFloat.div .binary64 x.toModel.unpack y.toModel.unpack)) = _
    rw [hu, hv]
    simp only [UnpackedFloat.div, hcore]
    rfl
  have hlow : 2 ^ 52 ≤ m * 2 ^ 53 / n := by
    rw [Nat.le_div_iff_mul_le hn]
    omega
  have hhigh : m * 2 ^ 53 / n < 2 ^ 54 := by
    rw [Nat.div_lt_iff_lt_mul hn]
    omega
  obtain ⟨j, hj, hj1⟩ := exists_log2 hlow hhigh
  generalize accuracyOfFraction (m * 2 ^ 53 % n) n = acc at hquot
  rw [hquot]
  obtain ⟨d, hd, h1, h2⟩ := isNormal_round acc hj (e := e - f - 53) (by omega) (by omega)
  exact ⟨d, hd, by omega, by omega⟩

end IsNormal

/-! ## Integers -/

/-- A positive integer is scaled up to 53 bits, or rounded to them. -/
theorem isNormal_model_ofNat {n : Nat} (hn : n ≠ 0) (hlt : n < 2 ^ 64) :
    ∃ e, IsNormal (.ofModel (.ofNat n)) e ∧ -52 ≤ e ∧ e ≤ 12 := by
  have hlog : n.log2 < 64 := (Nat.log2_lt hn).mpr hlt
  have htarget : Format.binary64.targetExponent (totalExponent n 0) = n.log2 - 52 := by
    simp [Format.targetExponent, totalExponent, Format.mantissaBits, Format.minExponent]
    omega
  have hround : UnpackedFloat.ofNat .binary64 n = roundWithAccuracy .binary64 .positive (n * 2 ^ (52 - n.log2))
      (-(52 - n.log2 : Nat)) .exact := by
    have hpos : compare (n : ℤ) 0 = .gt := Int.compare_eq_gt.mpr (by omega)
    have hshift : (-((n.log2 : ℤ) - 52)).toNat = 52 - n.log2 := by omega
    simp only [UnpackedFloat.ofNat, UnpackedFloat.ofInt, UnpackedFloat.normalize, hpos, UnpackedFloat.round, Int.toNat_natCast,
      htarget, decreaseExponent, hshift, Nat.shiftLeft_eq, Int.zero_sub]
  have hbits : (n * 2 ^ (52 - n.log2)).log2 = 52 + (n.log2 - 52) := by
    rw [log2_mul_pow hn]
    omega
  rw [Float.Model.ofNat, hround]
  obtain ⟨d, hd, h1, h2⟩ := isNormal_round .exact hbits (e := -(52 - n.log2 : Nat)) (by omega) (by omega)
  exact ⟨d, hd, by omega, by omega⟩

theorem isNormal_toFloat {n : UInt64} (hn : 0 < n) : ∃ e, IsNormal n.toFloat e ∧ -52 ≤ e ∧ e ≤ 12 :=
  isNormal_model_ofNat (UInt64.lt_iff_toNat_lt.mp hn).ne' n.toNat_lt

theorem isNormal_one : IsNormal (Float.ofBits 0x3FF0000000000000) (-52) :=
  ⟨2 ^ 52, by decide, rfl, by decide +kernel⟩

/-- The literal of a positive integer. -/
theorem isNormal_ofNat {n : Nat} (hn : n ≠ 0) (hlt : n < 2 ^ 64) :
    ∃ e, IsNormal (Float.ofNat n) e ∧ -52 ≤ e ∧ e ≤ 14 := by
  by_cases hsmall : n < 2 ^ 53
  · have hprod : Float.ofNat n = n.toUInt64.toFloat * Float.ofBits 0x3FF0000000000000 :=
      dif_pos ⟨hsmall, by decide⟩
    have hword : n.toUInt64.toNat = n := by
      simp
      omega
    have hpos : 0 < n.toUInt64 := by
      rw [UInt64.lt_iff_toNat_lt, hword]
      exact Nat.pos_of_ne_zero hn
    obtain ⟨e, he, h1, h2⟩ := isNormal_toFloat hpos
    obtain ⟨d, hd, h3, h4⟩ := he.mul isNormal_one (by omega) (by omega)
    exact ⟨d, hprod ▸ hd, by omega, by omega⟩
  · have hlog : n.log2 < 64 := (Nat.log2_lt hn).mpr hlt
    have hround : Float.ofNat n =
        .ofModel (.pack (roundWithAccuracy .binary64 .positive (n * 2 ^ 53) (-53) .exact)) := by
      have hmodel : Float.ofNat n = .ofModel (.ofScientific n 0) := dif_neg fun h => hsmall h.1
      have hsize : ¬ ((0 : ℤ) < -((2 ^ Format.binary64.exponentBits : ℤ) + n.log2)) := by
        have hexp : (2 ^ Format.binary64.exponentBits : ℤ) = 2048 := rfl
        rw [hexp]
        omega
      have hshift : (n <<< 53) * 10 ^ (0 : ℤ).toNat = n * 2 ^ 53 := by
        rw [Nat.shiftLeft_eq]
        exact Nat.mul_one _
      rw [hmodel, Float.Model.ofScientific, UnpackedFloat.ofScientific, dif_neg hn, if_neg (by decide), if_neg hsize,
        if_pos (by decide), ← hshift]
      rfl
    have hbits : (n * 2 ^ 53).log2 = 52 + (n.log2 + 1) := by
      rw [log2_mul_pow hn]
      omega
    obtain ⟨d, hd, h1, h2⟩ := isNormal_round .exact hbits (e := -53) (by omega) (by omega)
    exact ⟨d, hround ▸ hd, by omega, by omega⟩

end MdInfoSet.Binary64
