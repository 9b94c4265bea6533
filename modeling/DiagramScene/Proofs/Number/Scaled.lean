import Mathlib
import DiagramScene.Json.Reader
import DiagramScene.Proofs.Number.Finite

/-!
# Scaled numbers are finite

A JSON text writes a number as digits and a power of ten.  `Json.scale` multiplies the number of
the digits with the power, or divides by it, and refuses a product that leaves the range.  What
comes out is finite (`isFinite_scale`).

A product is finite or an infinity unless a factor is not finite, and a quotient grows with the
smallness of the divisor.  So the exponents of the powers of ten are bounded on both sides, which
is `Within`: a power is normal, and it is rounded to the 53 bits that it keeps when it is packed.
-/

namespace DiagramScene.Number

open Float.Model Float.Model.UnpackedFloat

/-- The number is finite with an exponent between two bounds, and not zero. -/
def Within (low high : Int) : UnpackedFloat → Prop
  | .finite _ _ e _ => low ≤ e ∧ e ≤ high
  | _ => False

instance (low high : Int) (f : UnpackedFloat) : Decidable (Within low high f) := by
  cases f <;> unfold Within <;> infer_instance

/-! ### Normal numbers -/

/-- Rounding makes a mantissa no smaller. -/
theorem le_roundedMantissa (em : ExtendedMantissa) : em.mantissa ≤ em.roundedMantissa := by
  obtain ⟨m, r, s⟩ := em
  cases r <;> cases s <;>
    simp [ExtendedMantissa.roundedMantissa, ExtendedMantissa.accuracy, Accuracy.roundToNearestEven]

/-- A mantissa of 53 bits or more is shifted to 53 bits, if its exponent is not too small. -/
theorem shiftToTargetExponent_normal {m : Nat} {e : Int} (hm : 2 ^ 52 ≤ m) (he : -1074 ≤ e)
    (a : Accuracy) :
    2 ^ 52 ≤ (shiftToTargetExponent Format.binary64 m e a).1.mantissa ∧
      (shiftToTargetExponent Format.binary64 m e a).1.mantissa < 2 ^ 53 ∧
      (shiftToTargetExponent Format.binary64 m e a).2 = e + (m.log2 - 52 : Nat) := by
  have hm0 : m ≠ 0 := by
    rintro rfl
    exact absurd hm (by decide)
  have hlog : 52 ≤ m.log2 := (Nat.le_log2 hm0).mpr hm
  have hshift : (Format.binary64.targetExponent (totalExponent m e) - e).toNat = m.log2 - 52 := by
    simp only [Format.targetExponent, totalExponent, Format.mantissaBits, Format.minExponent]
    norm_num
    omega
  have hsplit : 2 ^ m.log2 = 2 ^ 52 * 2 ^ (m.log2 - 52) := by
    rw [← pow_add, Nat.add_sub_cancel' hlog]
  have hlow : 2 ^ 52 * 2 ^ (m.log2 - 52) ≤ m := hsplit ▸ Nat.log2_self_le hm0
  have hhigh : m < 2 ^ 53 * 2 ^ (m.log2 - 52) := by
    have hlt : m < 2 ^ (m.log2 + 1) := Nat.lt_log2_self
    rw [pow_succ, hsplit] at hlt
    omega
  simp only [shiftToTargetExponent, shiftToExponent, hshift, shift_mantissa,
    mantissa_ofMantissaAndAccuracy]
  exact ⟨(Nat.le_div_iff_mul_le (by positivity)).mpr hlow,
    (Nat.div_lt_iff_lt_mul (by positivity)).mpr hhigh, True.intro⟩

/-- Rounding a number of 53 bits or more gives one of 53 bits. -/
theorem roundWithAccuracy_normal {m : Nat} {e : Int} (hm : 2 ^ 52 ≤ m) (he : -1074 ≤ e) (s : Sign)
    (a : Accuracy) : ∃ m' e' h,
      roundWithAccuracy Format.binary64 s m e a = .finite s m' e' h ∧
        2 ^ 52 ≤ m' ∧ m' < 2 ^ 53 ∧ e ≤ e' ∧ e' ≤ e + (m.log2 - 52 : Nat) + 1 := by
  obtain ⟨hlow, hhigh, hexponent⟩ := shiftToTargetExponent_normal hm he a
  simp only [roundWithAccuracy]
  generalize shiftToTargetExponent Format.binary64 m e a = shifted at hlow hhigh hexponent ⊢
  have hrounded : 2 ^ 52 ≤ shifted.1.roundedMantissa := hlow.trans (le_roundedMantissa _)
  have hbits : shifted.1.roundedMantissa.log2 ≤ 53 := by
    have hle := roundedMantissa_le shifted.1
    exact Nat.lt_succ_iff.mp ((Nat.log2_lt (by omega)).mpr (by omega))
  obtain ⟨hlow₂, hhigh₂, hexponent₂⟩ :=
    shiftToTargetExponent_normal hrounded (e := shifted.2) (by omega) .exact
  rw [dif_neg (by omega)]
  exact ⟨_, _, _, rfl, hlow₂, hhigh₂, by omega, by omega⟩

/-- A normal number is packed with its exponent in the field. -/
theorem field_pack_normal {s : Sign} {m : Nat} {e : Int} (hm : 0 < m) (hlow : 2 ^ 52 ≤ m)
    (hhigh : m < 2 ^ 53) (he : e ≤ maxExponent) :
    field (UnpackedFloat.pack Format.binary64 (.finite s m e hm)) = (e + 1075).toNat := by
  have hbits : m.log2 + 1 = Format.binary64.mantissaBits := by
    have hlog : 52 ≤ m.log2 := (Nat.le_log2 hm.ne').mpr hlow
    have hlog' : m.log2 < 53 := (Nat.log2_lt hm.ne').mpr hhigh
    simp only [Format.mantissaBits]
    omega
  have hbias := biased_eq e
  simp only [field, UnpackedFloat.pack, hbias]
  rw [if_neg (biased_lt he), if_pos hbits, unpackExponent_packComponents]
  exact Nat.mod_eq_of_lt (Nat.lt_of_succ_lt (not_le.mp (biased_lt he)))

/-- A number with a field that is neither the least nor the largest is unpacked with the exponent
of the field. -/
theorem within_unpack {bits : BitVec Format.binary64.numBits} {low high : Int}
    (hpos : 0 < field bits) (hfinite : field bits < 2047)
    (hlow : low + 1075 ≤ field bits) (hhigh : (field bits : Int) ≤ high + 1075) :
    Within low high (unpack Format.binary64 bits) := by
  have hzero : @unpackExponent Format.binary64 bits ≠ 0#11 := by
    intro h
    rw [field, h] at hpos
    exact absurd hpos (by decide)
  simp only [UnpackedFloat.unpack]
  rw [if_neg (unpackExponent_ne hfinite), if_neg hzero]
  change low ≤ (field bits : Int) - 1075 ∧ (field bits : Int) - 1075 ≤ high
  omega

/-- A product of numbers, rounded to 53 bits. -/
theorem within_unpack_pack_mul {m n : Nat} {d e low high : Int} {hm : 0 < m} {hn : 0 < n}
    (hmn : 2 ^ 52 ≤ m * n) (s t : Sign) (hmin : -1074 ≤ d + e) (hlow : low ≤ d + e)
    (hhigh : d + e + ((m * n).log2 - 52 : Nat) + 1 ≤ high) (hmax : high ≤ maxExponent) :
    Within low high (Float.Model.pack (UnpackedFloat.mul Format.binary64 (.finite s m d hm)
      (.finite t n e hn))).unpack := by
  obtain ⟨m', e', hm', hround, hlow', hhigh', he, he'⟩ :=
    roundWithAccuracy_normal hmn hmin (s * t) .exact
  have hfield := field_pack_normal (s := s * t) (e := e') hm' hlow' hhigh' (by omega)
  unfold maxExponent at hmax
  change Within low high (unpack Format.binary64 (UnpackedFloat.pack Format.binary64
    (roundWithAccuracy Format.binary64 (s * t) (m * n) (d + e) .exact)))
  rw [hround]
  exact within_unpack (by omega) (by omega) (by omega) (by omega)

/-! ### Powers of ten -/

/-- A power of ten below the largest power of two is in the range. -/
theorem within_ofScientific {n k : Nat} (hn : n ≤ 1000) (hk : k ≤ 1023) (hlt : 10 ^ n < 2 ^ k) :
    Within (-53) maxExponent
      (Float.Model.pack (UnpackedFloat.ofScientific Format.binary64 1 (n : Int))).unpack := by
  have hmantissa : 1 <<< Format.binary64.mantissaBits * 10 ^ (n : Int).toNat = 2 ^ 53 * 10 ^ n := by
    rw [Int.toNat_natCast, Nat.one_shiftLeft]
    rfl
  have hmin : 2 ^ 52 ≤ 2 ^ 53 * 10 ^ n :=
    (by decide : 2 ^ 52 ≤ 2 ^ 53).trans (Nat.le_mul_of_pos_right _ (by positivity))
  have hne : 2 ^ 53 * 10 ^ n ≠ 0 := by positivity
  have hlog : (2 ^ 53 * 10 ^ n).log2 < 53 + k := by
    rw [Nat.log2_lt hne, pow_add]
    exact (Nat.mul_lt_mul_left (by decide)).mpr hlt
  rw [UnpackedFloat.ofScientific, dif_neg (by decide), if_neg (by simp; omega),
    if_neg (by simp; omega), if_pos (by omega)]
  refine within_unpack_pack_mul (hmantissa ▸ hmin) _ _ (by decide) (by decide) ?_ (le_refl _)
  rw [hmantissa]
  unfold maxExponent
  simp only [Format.mantissaBits]
  omega

/-- The powers of ten that are not too large are in the range. -/
theorem within_powerOfTen {n : Nat} (hn : n ≤ 308) :
    Within (-53) maxExponent (Json.powerOfTen n).toModel.unpack := by
  rcases Nat.lt_or_ge n 23 with hshort | hlong
  · have htable : ∀ k < 23, Within (-53) maxExponent (Json.powerOfTen k).toModel.unpack := by
      decide +kernel
    exact htable n hshort
  rcases hn.eq_or_lt with rfl | hn
  · -- the largest power is above the largest power of two
    decide +kernel
  · have hlt : 10 ^ n < 2 ^ 1023 :=
      (Nat.pow_le_pow_right (by decide) (by omega : n ≤ 307)).trans_lt (by decide +kernel)
    change Within (-53) maxExponent (Float.ofScientific 1 false n).toModel.unpack
    rw [Float.ofScientific, dif_neg (by omega)]
    exact within_ofScientific (by omega) (le_refl _) hlt

/-- The largest of these powers of ten has the largest exponent. -/
theorem within_powerOfTen_last {n : Nat} (hn : n = 308) :
    Within maxExponent maxExponent (Json.powerOfTen n).toModel.unpack := by
  subst hn
  decide +kernel

/-! ### Products and quotients -/

/-- Beyond the largest exponent a number is packed as an infinity. -/
theorem pack_of_maxExponent_lt {s : Sign} {m : Nat} {e : Int} {hm : 0 < m} (he : maxExponent < e) :
    Float.Model.pack (.finite s m e hm) = Float.Model.pack (.infinity s) := by
  have hlarge : 2 ^ Format.binary64.exponentBits ≤
      (e + Format.binary64.exponentBias +
        Format.binary64.mantissaBitsWithoutImplicit).toNat + 1 := by
    rw [biased_eq]
    unfold maxExponent at he
    simp
    omega
  have hpacked : UnpackedFloat.pack Format.binary64 (.finite s m e hm) =
      UnpackedFloat.pack Format.binary64 (.infinity s) := if_pos hlarge
  simp only [Float.Model.pack, hpacked]

/-- A number is packed as a finite one or as an infinity. -/
theorem isFinite_or_pack_eq_infinity (s : Sign) {m : Nat} (e : Int) (hm : 0 < m) :
    (Float.Model.pack (.finite s m e hm)).isFinite = true ∨
      Float.Model.pack (.finite s m e hm) = Float.Model.pack (.infinity s) := by
  rcases le_or_gt e maxExponent with he | he
  · have hmax : AtMost maxExponent (.finite s m e hm) := he
    exact .inl (isFinite_of_atMost (atMost_unpack_pack hmax (by decide) (le_refl _)))
  · exact .inr (pack_of_maxExponent_lt he)

/-- What is packed is finite or an infinity, unless it is no number. -/
theorem isFinite_or_isInf_pack {f : UnpackedFloat} (h : f.isNaN = false) :
    (Float.Model.pack f).isFinite = true ∨ (Float.Model.pack f).isInf = true := by
  cases f with
  | notANumber => exact absurd h nofun
  | infinity s => exact .inr (by cases s <;> rfl)
  | zero s => exact .inl (by cases s <;> rfl)
  | finite s m e hm =>
    refine (isFinite_or_pack_eq_infinity s e hm).imp_right fun hinf => ?_
    rw [hinf]
    cases s <;> rfl

/-- Rounding keeps the sign. -/
theorem roundWithAccuracy_cases (s : Sign) (m : Nat) (e : Int) (a : Accuracy) :
    roundWithAccuracy Format.binary64 s m e a = .zero s ∨
      ∃ m' e' hm', roundWithAccuracy Format.binary64 s m e a = .finite s m' e' hm' := by
  simp only [roundWithAccuracy]
  split
  · exact .inl rfl
  · rename_i hmantissa
    exact .inr ⟨_, _, Nat.pos_of_ne_zero hmantissa, rfl⟩

/-- An infinity is packed and unpacked again. -/
theorem unpack_pack_infinity (s : Sign) :
    (Float.Model.pack (.infinity s)).unpack = .infinity s := by
  cases s <;> rfl

/-- A number whose exponent is between two bounds has a mantissa and an exponent. -/
theorem Within.cases {low high : Int} {f : UnpackedFloat} (h : Within low high f) :
    ∃ s m e hm, f = .finite s m e hm ∧ low ≤ e ∧ e ≤ high := by
  cases f with
  | finite s m e hm => exact ⟨s, m, e, hm, rfl, h⟩
  | zero s | infinity s | notANumber => exact h.elim

/-- A product of finite numbers is finite, or it is too large. -/
theorem isFinite_mul {x y : Float} {bound low high : Int} (hx : AtMost bound x.toModel.unpack)
    (hy : Within low high y.toModel.unpack) (hxy : (x * y).isInf ≠ true) :
    (x * y).isFinite = true := by
  have hnumber : (UnpackedFloat.mul Format.binary64 x.toModel.unpack y.toModel.unpack).isNaN =
      false := by
    obtain ⟨t, n, e, hn, hyfinite, -, -⟩ := hy.cases
    rw [hyfinite]
    rcases hx.cases with ⟨s, hzero⟩ | ⟨s, m, d, hm, hxfinite, -⟩
    · rw [hzero]
      rfl
    · rw [hxfinite, UnpackedFloat.mul]
      rcases roundWithAccuracy_cases (s * t) (m * n) (d + e) .exact with
        hround | ⟨m', e', hm', hround⟩ <;>
        · rw [hround]
          rfl
  exact (isFinite_or_isInf_pack hnumber).resolve_right hxy

/-- A quotient is computed with an exponent that leaves 54 bits of it at most. -/
theorem exists_divCore_lt {m n : Nat} (hm : m < 2 ^ 53) (hm0 : m ≠ 0) (hn0 : n ≠ 0) (d e : Int) :
    ∃ k : Nat, (divCore Format.binary64 m d n e).1 < 2 ^ k ∧
      (divCore Format.binary64 m d n e).2.1 + k ≤ max (d - (e + n.log2) + 53) (-1074) ∧
      (divCore Format.binary64 m d n e).2.1 ≤ max (d - (e + n.log2) - 1) (-1074) := by
  have hlog : m.log2 < 53 := (Nat.log2_lt hm0).mpr hm
  have htarget : Format.binary64.targetExponent (totalExponent m d - totalExponent n e) =
      max (m.log2 + 1 + d - (n.log2 + 1 + e) - 53) (-1074) := by
    simp [Format.targetExponent, totalExponent, Format.mantissaBits, Format.minExponent]
  simp only [divCore, htarget]
  generalize hshift : (d - e - min (d - e) _).toNat = shift
  refine ⟨m.log2 + 1 + shift - n.log2, Nat.div_lt_of_lt_mul ?_, by omega, by omega⟩
  calc m <<< shift = m * 2 ^ shift := Nat.shiftLeft_eq m shift
    _ < 2 ^ (m.log2 + 1) * 2 ^ shift := (Nat.mul_lt_mul_right (by positivity)).mpr Nat.lt_log2_self
    _ = 2 ^ (m.log2 + 1 + shift) := (pow_add 2 _ _).symm
    _ ≤ 2 ^ (n.log2 + (m.log2 + 1 + shift - n.log2)) := Nat.pow_le_pow_right (by decide) (by omega)
    _ = 2 ^ n.log2 * 2 ^ (m.log2 + 1 + shift - n.log2) := pow_add 2 _ _
    _ ≤ n * 2 ^ (m.log2 + 1 + shift - n.log2) := Nat.mul_le_mul_right _ (Nat.log2_self_le hn0)

/-- A quotient has an exponent that is smaller by the size of the divisor, or larger by one at
most. -/
theorem atMost_div {x y : Float} {bound bound' : Int} (hx : AtMost bound x.toModel.unpack)
    {t : Sign} {n : Nat} {e : Int} {hn : 0 < n} (hy : y.toModel.unpack = .finite t n e hn)
    (hbound : bound - (e + n.log2) + 1 ≤ bound') (hmin : -1073 ≤ bound')
    (hmax : bound' ≤ maxExponent) : AtMost bound' (x / y).toModel.unpack := by
  refine atMost_unpack_pack ?_ (by omega) hmax
  rw [hy]
  rcases hx.cases with ⟨s, hzero⟩ | ⟨s, m, d, hm, hxfinite, hd⟩
  · rw [hzero]
    exact True.intro
  · rw [hxfinite]
    obtain ⟨k, hbits, hsum, hexponent⟩ :=
      exists_divCore_lt (unpack_mantissa_lt hxfinite) hm.ne' hn.ne' d e
    have he : (divCore Format.binary64 m d n e).2.1 + 1 ≤ bound' := by omega
    have hk : (divCore Format.binary64 m d n e).2.1 + k - 52 ≤ bound' := by omega
    exact atMost_roundWithAccuracy hbits _ _ _ he hk hmin

/-- A quotient has an exponent that is larger than the difference of the exponents by one at
most. -/
theorem atMost_div_within {x y : Float} {bound bound' low high : Int}
    (hx : AtMost bound x.toModel.unpack) (hy : Within low high y.toModel.unpack)
    (hbound : bound - low + 1 ≤ bound') (hmin : -1073 ≤ bound') (hmax : bound' ≤ maxExponent) :
    AtMost bound' (x / y).toModel.unpack := by
  obtain ⟨t, n, e, hn, hyfinite, hlow, -⟩ := hy.cases
  exact atMost_div hx hyfinite (by omega) hmin hmax

/-- Dividing by the largest power of ten makes no exponent larger. -/
theorem atMost_div_powerOfTen {x : Float} {n : Nat} (hx : AtMost 394 x.toModel.unpack)
    (hn : n = 308) : AtMost 394 (x / Json.powerOfTen n).toModel.unpack := by
  have hlast := within_powerOfTen_last hn
  exact atMost_div_within hx hlast (by decide) (by decide) (by decide)

/-- A number scaled by a power of ten is finite. -/
theorem isFinite_scale {x y : Float} {exponent : Int} {steps : Nat}
    (hx : AtMost 394 x.toModel.unpack) (h : Json.scale x exponent steps = some y) :
    y.isFinite = true := by
  induction steps generalizing x exponent with
  | zero => exact Option.some.inj h ▸ isFinite_of_atMost hx
  | succ steps ih =>
    unfold Json.scale at h
    split at h
    · rename_i hsmall
      split at h
      · dsimp only at h
        split at h
        · exact absurd h nofun
        · rename_i hinf
          obtain rfl := Option.some.inj h
          exact isFinite_mul hx (within_powerOfTen hsmall) hinf
      · obtain rfl := Option.some.inj h
        have hquotient : AtMost 562 (x / Json.powerOfTen exponent.natAbs).toModel.unpack :=
          atMost_div_within hx (within_powerOfTen hsmall) (by decide) (by decide) (by decide)
        exact isFinite_of_atMost hquotient
    · split at h
      · exact Option.some.inj h ▸ isFinite_of_atMost hx
      · split at h
        · exact absurd h nofun
        · exact ih (atMost_div_powerOfTen hx rfl) h

end DiagramScene.Number
