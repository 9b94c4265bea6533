import Mathlib
import DiagramScene.Json.Value

/-!
# The numbers of JSON values are finite

A JSON text holds integers of up to 64 bits and finite floating point numbers.  `Number.toFloat`
takes the integers to floating point numbers, and none of them leaves the range of these.

The conversion multiplies and rounds.  How close the result comes is of no interest here; a coarse
bound on the exponent is carried through each step, which is `AtMost`.  The exponent of a number
grows with the length of its mantissa at most, and numbers of 64 bits are far from the bound
`maxExponent` beyond which a number is packed as an infinity.
-/

namespace DiagramScene.Number

open Float.Model Float.Model.UnpackedFloat

/-- The largest exponent of a packed number that is finite. -/
def maxExponent : Int := 971

/-- The number is zero, or finite with a bounded exponent. -/
def AtMost (bound : Int) : UnpackedFloat → Prop
  | .zero _ => True
  | .finite _ _ e _ => e ≤ bound
  | _ => False

/-- A number with a bounded exponent is zero or has a mantissa and an exponent. -/
theorem AtMost.cases {bound : Int} {f : UnpackedFloat} (h : AtMost bound f) :
    (∃ s, f = .zero s) ∨ ∃ s m e hm, f = .finite s m e hm ∧ e ≤ bound := by
  cases f with
  | zero s => exact .inl ⟨s, rfl⟩
  | finite s m e hm => exact .inr ⟨s, m, e, hm, rfl, h⟩
  | infinity s => exact h.elim
  | notANumber => exact h.elim

/-! ### Packing -/

/-- The mantissa of an unpacked number has 53 bits at most. -/
theorem unpack_mantissa_lt {bits : BitVec Format.binary64.numBits} {s : Sign} {m : Nat} {e : Int}
    {hm : 0 < m} (h : unpack Format.binary64 bits = .finite s m e hm) : m < 2 ^ 53 := by
  simp only [UnpackedFloat.unpack] at h
  split at h
  · split at h <;> exact absurd h (by simp)
  · split at h
    · split at h
      · exact absurd h (by simp)
      · obtain ⟨_, rfl, _⟩ := UnpackedFloat.finite.inj h
        exact lt_trans (BitVec.isLt _) (by decide)
    · obtain ⟨_, rfl, _⟩ := UnpackedFloat.finite.inj h
      exact BitVec.isLt _

/-- The exponent field of the bits of a number. -/
def field (bits : BitVec Format.binary64.numBits) : Nat :=
  (@unpackExponent Format.binary64 bits).toNat

/-- A field below the largest one is not that of an infinity. -/
theorem unpackExponent_ne {bits : BitVec Format.binary64.numBits} (h : field bits < 2047) :
    @unpackExponent Format.binary64 bits ≠ -1#11 := by
  intro hones
  rw [field, hones] at h
  exact absurd h (by decide)

/-- A number whose exponent field is bounded has a bounded exponent. -/
theorem atMost_unpack {bits : BitVec Format.binary64.numBits} {bound : Int}
    (hfinite : field bits < 2047) (hmin : -1074 ≤ bound)
    (hbound : (field bits : Int) ≤ bound + 1075) :
    AtMost bound (unpack Format.binary64 bits) := by
  simp only [UnpackedFloat.unpack]
  rw [if_neg (unpackExponent_ne hfinite)]
  split
  · rename_i hzero
    split
    · exact True.intro
    · rw [hzero]
      exact hmin
  · change (field bits : Int) - 1075 ≤ bound
    omega

/-- An exponent is packed with the bias. -/
theorem biased_eq (e : Int) :
    e + Format.binary64.exponentBias + Format.binary64.mantissaBitsWithoutImplicit = e + 1075 := by
  simp [Format.exponentBias]
  omega

/-- Up to the largest exponent a number is not packed as an infinity. -/
theorem biased_lt {e : Int} (he : e ≤ maxExponent) :
    ¬ 2 ^ Format.binary64.exponentBits ≤ (e + 1075).toNat + 1 := by
  unfold maxExponent at he
  simp
  omega

/-- The exponent field of a packed number is its exponent at most, with the bias. -/
theorem field_pack_le {s : Sign} {m : Nat} {e : Int} (hm : 0 < m) (he : e ≤ maxExponent) :
    field (UnpackedFloat.pack Format.binary64 (.finite s m e hm)) ≤ (e + 1075).toNat := by
  have hbias := biased_eq e
  simp only [field, UnpackedFloat.pack, hbias]
  rw [if_neg (biased_lt he)]
  split
  · rw [unpackExponent_packComponents]
    exact Nat.mod_le _ _
  · rw [unpackExponent_packComponents]
    exact Nat.zero_le _

/-- Packing a number with a bounded exponent and unpacking it again keeps the bound. -/
theorem atMost_unpack_pack {f : UnpackedFloat} {bound : Int} (h : AtMost bound f)
    (hmin : -1074 ≤ bound) (hmax : bound ≤ maxExponent) :
    AtMost bound (Float.Model.pack f).unpack := by
  rcases h.cases with ⟨s, rfl⟩ | ⟨s, m, e, hm, rfl, he⟩
  · cases s <;> exact True.intro
  · have hfield := field_pack_le (s := s) hm (he.trans hmax)
    unfold maxExponent at hmax
    change AtMost bound (UnpackedFloat.unpack Format.binary64
      (UnpackedFloat.pack Format.binary64 (.finite s m e hm)))
    exact atMost_unpack (by omega) hmin (by omega)

/-- A number that is zero or finite is finite. -/
theorem isFinite_of_atMost {a : Float.Model} {bound : Int} (h : AtMost bound a.unpack) :
    a.isFinite = true := by
  unfold Float.Model.isFinite
  rcases h.cases with ⟨s, hzero⟩ | ⟨s, m, e, hm, hfinite, _⟩
  · rw [hzero]
    rfl
  · rw [hfinite]
    rfl

/-! ### Rounding -/

/-- Shifting a mantissa divides it by a power of two. -/
theorem shift_mantissa (em : ExtendedMantissa) (k : Nat) :
    (em >>> k).mantissa = em.mantissa / 2 ^ k := by
  induction k with
  | zero => exact (Nat.div_one _).symm
  | succ k ih =>
    change (em >>> k).mantissa / 2 = _
    rw [ih, Nat.div_div_eq_div_mul, pow_succ]

/-- Rounding adds one to a mantissa at most. -/
theorem roundedMantissa_le (em : ExtendedMantissa) : em.roundedMantissa ≤ em.mantissa + 1 := by
  obtain ⟨m, r, s⟩ := em
  have hparity : m % 2 ≤ 1 := by omega
  cases r <;> cases s <;>
    simp [ExtendedMantissa.roundedMantissa, ExtendedMantissa.accuracy, Accuracy.roundToNearestEven]
  exact hparity

/-- A mantissa with its accuracy is the mantissa. -/
theorem mantissa_ofMantissaAndAccuracy (m : Nat) (a : Accuracy) :
    (ExtendedMantissa.ofMantissaAndAccuracy m a).mantissa = m := by
  cases a with
  | exact => rfl
  | inexact o => cases o <;> rfl

/-- A number of `k` bits that is shifted into its place has a mantissa of 53 bits, and an exponent
that grows by the bits that are lost. -/
theorem shiftToTargetExponent_le {m k : Nat} (hm : m < 2 ^ k) (e : Int) (a : Accuracy) :
    (shiftToTargetExponent Format.binary64 m e a).1.mantissa < 2 ^ 53 ∧
      (shiftToTargetExponent Format.binary64 m e a).2 ≤ max e (max (e + k - 53) (-1074)) := by
  have htarget : Format.binary64.targetExponent (totalExponent m e) =
      max (m.log2 + 1 + e - 53) (-1074) := by
    simp [Format.targetExponent, totalExponent, Format.mantissaBits, Format.minExponent]
  simp only [shiftToTargetExponent, shiftToExponent, shift_mantissa,
    mantissa_ofMantissaAndAccuracy, htarget]
  constructor
  · refine Nat.div_lt_of_lt_mul ?_
    calc m < 2 ^ (m.log2 + 1) := Nat.lt_log2_self
      _ ≤ 2 ^ ((max (m.log2 + 1 + e - 53) (-1074) - e).toNat + 53) :=
        Nat.pow_le_pow_right (by decide) (by omega)
      _ = _ := pow_add 2 _ _
  · rcases Nat.eq_zero_or_pos m with rfl | hpos
    · rw [Nat.log2_zero]
      omega
    · have hlog : m.log2 < k := (Nat.log2_lt hpos.ne').mpr hm
      omega

/-- Rounding a number of `k` bits raises its exponent by the bits that are lost, and by one more at
most. -/
theorem atMost_roundWithAccuracy {m k : Nat} {bound : Int} (hm : m < 2 ^ k) (s : Sign) (e : Int)
    (a : Accuracy) (he : e + 1 ≤ bound) (hk : e + k - 52 ≤ bound) (hmin : -1073 ≤ bound) :
    AtMost bound (roundWithAccuracy Format.binary64 s m e a) := by
  obtain ⟨hm₁, he₁⟩ := shiftToTargetExponent_le hm e a
  have hrounded := roundedMantissa_le (shiftToTargetExponent Format.binary64 m e a).1
  have hm₂ : (shiftToTargetExponent Format.binary64 m e a).1.roundedMantissa < 2 ^ 54 := by omega
  obtain ⟨_, he₂⟩ := shiftToTargetExponent_le hm₂
    (shiftToTargetExponent Format.binary64 m e a).2 .exact
  simp only [roundWithAccuracy]
  split
  · exact True.intro
  · change (_ : Int) ≤ bound
    push_cast at he₂
    omega

/-- Multiplying a number of `k` bits and one of `l` bits raises the sum of their exponents by twice
as many at most. -/
theorem atMost_mul {m n k l : Nat} {d e bound : Int} {hm : 0 < m} {hn : 0 < n} (hk : m < 2 ^ k)
    (hl : n < 2 ^ l) (s t : Sign) (hbound : d + e + 2 * (k + l) + 1 ≤ bound)
    (hmin : (k + l : Int) - 1073 ≤ bound) :
    AtMost bound (UnpackedFloat.mul Format.binary64 (.finite s m d hm) (.finite t n e hn)) := by
  have hmn : m * n < 2 ^ (k + l) := by
    rw [pow_add]
    exact Nat.mul_lt_mul'' hk hl
  exact atMost_roundWithAccuracy hmn _ _ _ (by omega) (by push_cast; omega) (by omega)

/-- Rounding a whole number of `k` bits. -/
theorem atMost_round {m k : Nat} (hm : m < 2 ^ k) (s : Sign) :
    AtMost (2 * k + 105) (UnpackedFloat.round Format.binary64 s m 0) := by
  simp only [UnpackedFloat.round, decreaseExponent]
  generalize hshift : (0 - Format.binary64.targetExponent (totalExponent m 0)).toNat = shift
  have hle : shift ≤ 52 := by
    rw [← hshift]
    simp only [Format.targetExponent, totalExponent, Format.mantissaBits, Format.minExponent]
    norm_num
    omega
  have hshifted : m <<< shift < 2 ^ (k + 52) := by
    rw [Nat.shiftLeft_eq, pow_add]
    exact Nat.mul_lt_mul_of_lt_of_le hm (Nat.pow_le_pow_right (by decide) hle) (by positivity)
  exact atMost_roundWithAccuracy hshifted _ _ _ (by omega) (by push_cast; omega) (by omega)

/-! ### Integers as floating point numbers -/

/-- A machine word becomes a number with a small exponent. -/
theorem atMost_ofUInt64 (n : UInt64) : AtMost 233 (UnpackedFloat.ofUInt64 Format.binary64 n) := by
  simp only [UnpackedFloat.ofUInt64, UnpackedFloat.ofNat, UnpackedFloat.ofInt,
    UnpackedFloat.normalize]
  split
  · rename_i h
    exact absurd (Int.compare_eq_lt.mp h) (by omega)
  · exact True.intro
  · exact atMost_round n.toNat_lt _

/-- A machine word, as a floating point number, has a small exponent. -/
theorem atMost_unpack_toFloat (n : UInt64) : AtMost 233 n.toFloat.toModel.unpack :=
  atMost_unpack_pack (atMost_ofUInt64 n) (by decide) (by decide)

/-- The factor one of the short numbers. -/
theorem unpack_one : (Float.ofBits 0x3FF0000000000000).toModel.unpack =
    .finite .positive (2 ^ 52) (-52) (by decide) := rfl

/-- A short number is converted as a machine word and multiplied by one. -/
theorem atMost_mul_one (n : UInt64) :
    AtMost 394 (UnpackedFloat.mul Format.binary64 n.toFloat.toModel.unpack
      (Float.ofBits 0x3FF0000000000000).toModel.unpack) := by
  rw [unpack_one]
  rcases (atMost_unpack_toFloat n).cases with ⟨s, hzero⟩ | ⟨s, m, e, hm, hfinite, he⟩
  · rw [hzero]
    exact True.intro
  · have hone : 2 ^ 52 < 2 ^ 53 := by decide
    rw [hfinite]
    exact atMost_mul (k := 53) (l := 53) (unpack_mantissa_lt hfinite) hone _ _ (by omega)
      (by decide)

/-- A long number is multiplied by a power of ten that is one. -/
theorem atMost_ofScientific {n : Nat} (hn : n < 2 ^ 64) (hn0 : n ≠ 0) :
    AtMost 394 (UnpackedFloat.ofScientific Format.binary64 n 0) := by
  have hshift : n <<< 53 < 2 ^ 117 := by
    rw [Nat.shiftLeft_eq]
    omega
  have hone : 10 ^ (0 : Int).toNat < 2 ^ 1 := by decide
  unfold UnpackedFloat.ofScientific
  rw [dif_neg hn0, if_neg (by decide), if_neg (by simp), if_pos (le_refl _)]
  refine atMost_mul (k := 117) (l := 1) ?_ ?_ _ _ ?_ ?_
  · exact hshift
  · exact hone
  · decide
  · decide

/-- The floating point number of a natural number of 64 bits has a small exponent. -/
theorem atMost_ofNat {n : Nat} (hn : n < 2 ^ 64) :
    AtMost 394 (Float.ofNat n).toModel.unpack := by
  change AtMost 394 (Float.ofScientific n false 0).toModel.unpack
  unfold Float.ofScientific
  split
  · exact atMost_unpack_pack (atMost_mul_one n.toUInt64) (by decide) (by decide)
  · rename_i hlong
    have hn0 : n ≠ 0 := by
      rintro rfl
      exact hlong (by decide)
    exact atMost_unpack_pack (atMost_ofScientific hn hn0) (by decide) (by decide)

/-- The floating point number of a natural number of 64 bits is finite. -/
theorem isFinite_ofNat {n : Nat} (hn : n < 2 ^ 64) : (Float.ofNat n).isFinite = true :=
  isFinite_of_atMost (atMost_ofNat hn)

/-- A finite number has a bounded exponent. -/
theorem atMost_of_isFinite {a : Float.Model} (h : a.isFinite = true) :
    AtMost maxExponent a.unpack := by
  have hbits : field a.toBits.toBitVec < 2047 := by
    by_contra hlarge
    have hones : @unpackExponent Format.binary64 a.toBits.toBitVec = -1#11 := by
      apply BitVec.eq_of_toNat_eq
      change field a.toBits.toBitVec = 2047
      have : field a.toBits.toBitVec < 2 ^ 11 := BitVec.isLt _
      omega
    simp only [Float.Model.isFinite, Float.Model.unpack, UnpackedFloat.unpack] at h
    rw [if_pos hones] at h
    split at h <;> exact absurd h Bool.false_ne_true
  exact atMost_unpack hbits (by decide) (by unfold maxExponent; omega)

/-- The number of the other sign is finite as well. -/
theorem isFinite_neg {x : Float} (h : x.isFinite = true) : (Float.neg x).isFinite = true := by
  have hneg : AtMost maxExponent x.toModel.unpack.neg := by
    rcases (atMost_of_isFinite h).cases with ⟨s, hzero⟩ | ⟨s, m, e, hm, hfinite, he⟩
    · rw [hzero]
      exact True.intro
    · rw [hfinite]
      exact he
  exact isFinite_of_atMost (atMost_unpack_pack hneg (by decide) (le_refl _))

/-- An integer of 64 bits, as a floating point number, is finite. -/
theorem isFinite_ofInt {n : Int} (hlow : -2 ^ 63 ≤ n) (hhigh : n < 2 ^ 64) :
    (Float.ofInt n).isFinite = true := by
  cases n with
  | ofNat n =>
    have hn : (n : Int) < 2 ^ 64 := hhigh
    exact isFinite_ofNat (by omega)
  | negSucc n => exact isFinite_neg (isFinite_ofNat (by omega))

/-- A number as JSON has it: an integer of 64 bits, with or without a sign, or a finite floating
point number. -/
def InRange : Number → Prop
  | .int n => -2 ^ 63 ≤ n ∧ n < 2 ^ 64
  | .float x => x.isFinite = true

/-- A number as JSON has it is finite as a floating point number. -/
theorem InRange.isFinite_toFloat {n : Number} (h : n.InRange) : n.toFloat.isFinite = true := by
  cases n with
  | int n => exact isFinite_ofInt h.1 h.2
  | float x => exact h

end DiagramScene.Number
