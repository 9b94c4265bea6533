import Mathlib
import DiagramScene.Number.Whole
import DiagramScene.Proofs.Number.Finite

/-!
# The parts of a number

`Dyadic.ofFloat?` reads the sign, the significand and the exponent of a number off its bits.  These
are the parts that the arithmetic of floating point numbers works on (`Dyadic.ofFloat?_eq`), so that
what is known about the results of operations is known about the parts as well: a finite number has
parts, and it is finite still when it is rounded to a whole number (`isFinite_roundWith`).
-/

namespace DiagramScene.Number

open Float.Model Float.Model.UnpackedFloat

/-! ### Fields of bits -/

section Fields

variable (bits : BitVec Format.binary64.numBits)

theorem field_eq : field bits = bits.toNat / hiddenBit % 0x800 := by
  simp [field, hiddenBit, unpackExponent, BitVec.extractLsb_toNat, Nat.shiftRight_eq_div_pow]

theorem toNat_unpackMantissa :
    (@unpackMantissa Format.binary64 bits).toNat = bits.toNat % hiddenBit := by
  simp [unpackMantissa, hiddenBit, BitVec.extractLsb_toNat]

/-- A number is negative if its first bit is set. -/
theorem ofBitVec_unpackSign : Sign.ofBitVec (@unpackSign Format.binary64 bits) =
    if 0x8000000000000000 ≤ bits.toNat then .negative else .positive := by
  have hbits : bits.toNat < 2 ^ 64 := bits.isLt
  have hsign : (@unpackSign Format.binary64 bits).toNat = bits.toNat / 2 ^ 63 % 2 := by
    simp [unpackSign, BitVec.extractLsb_toNat, Nat.shiftRight_eq_div_pow]
  unfold Sign.ofBitVec
  split
  · rename_i hzero
    rw [hzero] at hsign
    change 0 = _ at hsign
    rw [if_neg (by omega)]
  · rename_i hone
    have hne : (@unpackSign Format.binary64 bits).toNat ≠ 0 := fun h =>
      hone (BitVec.eq_of_toNat_eq h)
    rw [if_pos (by omega)]

end Fields

namespace Dyadic

/-- The parts of an unpacked number, if it is finite. -/
def ofUnpacked? : UnpackedFloat → Option Dyadic
  | .zero s => some ⟨s == .negative, 0, -1074⟩
  | .finite s m e _ => some ⟨s == .negative, m, e⟩
  | .infinity _ => none
  | .notANumber => none

/-- The sign of the parts of a number. -/
theorem decide_eq_beq_negative (n : Nat) : decide (0x8000000000000000 ≤ n) =
    ((if 0x8000000000000000 ≤ n then Sign.negative else .positive) == .negative) := by
  split <;> simp [*]

/-- The parts that are read off the bits of a number are those that it is unpacked to. -/
theorem ofFloat?_eq (x : Float) : ofFloat? x = ofUnpacked? x.toModel.unpack := by
  have hbits : x.toBits.toNat = x.toModel.toBits.toBitVec.toNat := rfl
  unfold ofFloat? Float.Model.unpack
  rw [hbits]
  generalize x.toModel.toBits.toBitVec = bits
  dsimp only
  rw [← field_eq, ← toNat_unpackMantissa, decide_eq_beq_negative, ← ofBitVec_unpackSign]
  unfold UnpackedFloat.unpack
  dsimp only
  by_cases hlast : field bits = 2047
  · have hones : @unpackExponent Format.binary64 bits = -1#11 := BitVec.eq_of_toNat_eq hlast
    rw [if_pos hlast, if_pos hones]
    split <;> rfl
  have hlt : field bits < 2047 := by
    have : field bits < 2 ^ 11 := BitVec.isLt _
    omega
  rw [if_neg hlast, if_neg (unpackExponent_ne hlt)]
  by_cases hfirst : field bits = 0
  · have hzero : @unpackExponent Format.binary64 bits = 0#11 := BitVec.eq_of_toNat_eq hfirst
    rw [if_pos hfirst, if_pos hzero]
    split
    · rename_i hmantissa
      rw [hmantissa]
      rfl
    · rw [hzero]
      rfl
  · have hne : @unpackExponent Format.binary64 bits ≠ 0#11 := by
      intro h
      apply hfirst
      rw [field, h]
      rfl
    have hleading : (1#1 ++ @unpackMantissa Format.binary64 bits).toNat =
        hiddenBit + (@unpackMantissa Format.binary64 bits).toNat := by
      rw [BitVec.toNat_append, ← Nat.shiftLeft_add_eq_or_of_lt (BitVec.isLt _)]
      rfl
    rw [if_neg hfirst, if_neg hne, ofUnpacked?, hleading]
    rfl

/-- A finite number has parts, and its significand has 53 bits at most. -/
theorem exists_ofFloat? {x : Float} (h : x.isFinite = true) :
    ∃ d, ofFloat? x = some d ∧ d.significand < 2 ^ 53 := by
  rw [ofFloat?_eq]
  rcases (atMost_of_isFinite h).cases with ⟨s, hzero⟩ | ⟨s, m, e, hm, hfinite, -⟩
  · rw [hzero]
    exact ⟨_, rfl, Nat.two_pow_pos 53⟩
  · rw [hfinite]
    exact ⟨_, rfl, unpack_mantissa_lt hfinite⟩

/-- A finite number that is not equal to zero has a significand above zero. -/
theorem significand_pos {x : Float} {d : Dyadic} (h : ofFloat? x = some d)
    (hne : (x == 0.0) = false) : 0 < d.significand := by
  rw [ofFloat?_eq] at h
  cases hparts : x.toModel.unpack with
  | zero s =>
    have hequal : (x == 0.0) = true := by
      change UnpackedFloat.beq x.toModel.unpack (.zero .positive) = true
      rw [hparts]
      rfl
    exact absurd hequal (hne ▸ Bool.false_ne_true)
  | finite s m e hm =>
    rw [hparts] at h
    obtain rfl := Option.some.inj h
    exact hm
  | infinity s | notANumber =>
    rw [hparts] at h
    exact absurd h nofun

/-- An infinity has no parts. -/
theorem ofFloat?_infinity {x : Float} {s : Sign} (h : x.toModel.unpack = .infinity s) :
    ofFloat? x = none := by
  rw [ofFloat?_eq, h]
  rfl

end Dyadic

/-! ### Rounding to whole numbers -/

/-- Rounding to a whole number adds one at most to the number below. -/
theorem magnitude_le (rule : Rounding) (negative : Bool) (num den : Nat) :
    rule.magnitude negative num den ≤ num / den + 1 := by
  unfold Rounding.magnitude
  generalize num / den = below
  generalize num % den = rest
  cases rule with
  | towardZero => exact Nat.le_succ below
  | down | up | nearestAway | nearestEven => grind

/-- A finite number is rounded to a finite one. -/
theorem isFinite_roundWith (rule : Rounding) {x : Float} (h : x.isFinite = true) :
    (roundWith rule x).isFinite = true := by
  obtain ⟨d, hd, hm⟩ := Dyadic.exists_ofFloat? h
  rw [roundWith, hd]
  dsimp only
  split
  · exact h
  · rename_i hexponent
    have hfraction : d.fraction.1 = d.significand := by
      rw [Dyadic.fraction, if_neg hexponent]
    have hmagnitude := magnitude_le rule d.negative d.fraction.1 d.fraction.2
    have hquotient := Nat.div_le_self d.fraction.1 d.fraction.2
    have hfinite := isFinite_ofNat
      (n := rule.magnitude d.negative d.fraction.1 d.fraction.2) (by omega)
    split
    · exact isFinite_neg hfinite
    · exact hfinite

end DiagramScene.Number
