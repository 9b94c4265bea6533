import Mathlib
import DiagramScene.Proofs.Number.Notation
import DiagramScene.Proofs.Number.Scaled
import DiagramScene.Svg.Markup

/-!
# The numbers of a document

`numberText` writes zero for a value that is not finite, and takes any other value to thousandths
first.  A thousand times a value may be an infinity although the value is finite (`Overflows`), and
this is what is written then.  The main statement is `isPlainDecimal_numberText_iff`: every other
value is written as a plain decimal, which has no exponent and no sign in front of a zero.
-/

namespace DiagramScene.Svg

open Float.Model Float.Model.UnpackedFloat Number

/-- The value is finite, but it is not in thousandths. -/
def Overflows (x : Float) : Prop := x.isFinite = true ∧ (x * 1000.0).isFinite = false

/-- The parts of the number one thousand. -/
theorem unpack_thousand :
    (1000.0 : Float).toModel.unpack = .finite .positive (1000 * 2 ^ 43) (-43) (by decide) := by
  rfl

/-! ### Values in range -/

/-- A finite value is divided by one thousand. -/
theorem isFinite_div_thousand {x : Float} (h : x.isFinite = true) :
    (x / 1000.0).isFinite = true := by
  have hlog : (1000 * 2 ^ 43 : Nat).log2 = 52 := by decide +kernel
  have hquotient : AtMost 963 (x / 1000.0).toModel.unpack := by
    apply atMost_div (atMost_of_isFinite h) unpack_thousand
    · rw [hlog]
      decide
    · decide
    · decide
  exact isFinite_of_atMost hquotient

/-- A value is written as a plain decimal, unless it has too many thousandths. -/
theorem isPlainDecimal_numberText {x : Float} (h : ¬ Overflows x) :
    IsPlainDecimal (numberText x).toList := by
  unfold numberText
  split
  · exact .unsigned (.whole (isDigits_toDigits 0))
  · rename_i hfinite
    have hx : x.isFinite = true := by simpa using hfinite
    have hproduct : (x * 1000.0).isFinite = true := by
      by_contra hinfinite
      exact h ⟨hx, Bool.not_eq_true _ ▸ hinfinite⟩
    have hy : (toThousandths x).isFinite = true :=
      isFinite_div_thousand (isFinite_roundWith .nearestAway hproduct)
    dsimp only
    split
    · exact .unsigned (.whole (isDigits_toDigits 0))
    · rename_i hne
      obtain ⟨d, hd, hm⟩ := Dyadic.exists_ofFloat? hy
      rw [plainText, String.toList_ofList]
      exact isPlainDecimal_chars hd hm fun _ =>
        Dyadic.significand_pos hd (Bool.not_eq_true _ ▸ hne)

/-! ### Values out of range -/

/-- The product is an infinity of the same sign if there are too many thousandths. -/
theorem Overflows.unpack_eq {x : Float} (h : Overflows x) :
    ∃ s m e hm, x.toModel.unpack = .finite s m e hm ∧
      (x * 1000.0).toModel.unpack = .infinity s := by
  obtain ⟨hfinite, hinfinite⟩ := h
  change (Float.Model.pack (UnpackedFloat.mul Format.binary64 x.toModel.unpack
    (1000.0 : Float).toModel.unpack)).isFinite = false at hinfinite
  rw [unpack_thousand] at hinfinite
  rcases (atMost_of_isFinite hfinite).cases with ⟨s, hzero⟩ | ⟨s, m, e, hm, hparts, -⟩
  · rw [hzero] at hinfinite
    cases s <;> exact absurd hinfinite (by decide)
  · refine ⟨s, m, e, hm, hparts, ?_⟩
    have hproduct : UnpackedFloat.mul Format.binary64 (.finite s m e hm)
        (.finite .positive (1000 * 2 ^ 43) (-43) (by decide)) =
          roundWithAccuracy Format.binary64 s (m * (1000 * 2 ^ 43)) (e + -43) .exact := by
      cases s <;> rfl
    change (Float.Model.pack (UnpackedFloat.mul Format.binary64 x.toModel.unpack
      (1000.0 : Float).toModel.unpack)).unpack = .infinity s
    rw [hparts, hproduct] at hinfinite
    rw [unpack_thousand, hparts, hproduct]
    rcases roundWithAccuracy_cases s (m * (1000 * 2 ^ 43)) (e + -43) .exact with
      hzero | ⟨m', e', hm', hround⟩
    · rw [hzero] at hinfinite
      cases s <;> exact absurd hinfinite (by decide)
    · rw [hround] at hinfinite ⊢
      rw [(isFinite_or_pack_eq_infinity s e' hm').resolve_left (hinfinite ▸ Bool.false_ne_true),
        unpack_pack_infinity]

/-- A value whose product is an infinity is an infinity in thousandths. -/
theorem unpack_toThousandths {x : Float} {s : Sign}
    (h : (x * 1000.0).toModel.unpack = .infinity s) :
    (toThousandths x).toModel.unpack = .infinity s := by
  have hround : roundWith .nearestAway (x * 1000.0) = x * 1000.0 := by
    rw [roundWith, Dyadic.ofFloat?_infinity h]
  have hquotient : UnpackedFloat.div Format.binary64 (.infinity s)
      (.finite .positive (1000 * 2 ^ 43) (-43) (by decide)) = .infinity s := by
    cases s <;> rfl
  change (Float.Model.pack (UnpackedFloat.div Format.binary64
    (roundWith .nearestAway (x * 1000.0)).toModel.unpack (1000.0 : Float).toModel.unpack)).unpack =
      .infinity s
  rw [hround, unpack_thousand, h, hquotient, unpack_pack_infinity]

/-- Too many thousandths are written as an infinity with the sign of the value. -/
theorem Overflows.numberText_eq {x : Float} (h : Overflows x) :
    numberText x = if x < 0.0 then "-inf" else "inf" := by
  obtain ⟨s, m, e, hm, hparts, hproduct⟩ := h.unpack_eq
  have hy := unpack_toThousandths hproduct
  have hne : (toThousandths x == 0.0) = false := by
    change UnpackedFloat.beq (toThousandths x).toModel.unpack (.zero .positive) = false
    rw [hy]
    cases s <;> rfl
  have hnumber : (toThousandths x).isNaN = false := by
    change (toThousandths x).toModel.unpack.isNaN = false
    rw [hy]
    rfl
  have hsign : toThousandths x < 0.0 ↔ x < 0.0 := by
    change decide (UnpackedFloat.lt (toThousandths x).toModel.unpack (.zero .positive) = true) =
      true ↔ decide (UnpackedFloat.lt x.toModel.unpack (.zero .positive) = true) = true
    rw [hy, hparts]
    cases s <;> exact Iff.rfl
  rw [numberText, h.1]
  simp only [Bool.not_true, Bool.false_eq_true, if_false, hne]
  rw [plainText, Format.chars, Dyadic.ofFloat?_infinity hy]
  simp only [hnumber, Bool.false_eq_true, if_false, hsign]
  split <;> rfl

/-- Every value is written as a plain decimal, unless it is finite and not finite in thousandths.
Such a value is written as an infinity, and no other value is. -/
theorem isPlainDecimal_numberText_iff (x : Float) :
    (IsPlainDecimal (numberText x).toList ↔ ¬ Overflows x) ∧
      (Overflows x ↔ numberText x = if x < 0.0 then "-inf" else "inf") := by
  have hword : 'i' ∈ (if x < 0.0 then "-inf" else "inf").toList := by
    split <;> decide
  refine ⟨⟨fun hplain hover => ?_, isPlainDecimal_numberText⟩,
    Overflows.numberText_eq, fun htext => ?_⟩
  · rw [hover.numberText_eq] at hplain
    exact not_isPlainDecimal_of_mem hword hplain
  · by_contra hover
    have hplain := isPlainDecimal_numberText hover
    rw [htext] at hplain
    exact not_isPlainDecimal_of_mem hword hplain

example : numberText (-0.0001) = "0" := by decide +kernel

/-- A finite value with more than three hundred digits. -/
def hugeNumber : Float := 1e306

/-- A finite value is written as a word. -/
theorem not_isPlainDecimal_hugeNumber :
    hugeNumber.isFinite = true ∧ ¬ IsPlainDecimal (numberText hugeNumber).toList := by
  have htext : numberText hugeNumber = "inf" := by decide +kernel
  refine ⟨by decide +kernel, ?_⟩
  rw [htext]
  exact not_isPlainDecimal_of_mem (by decide)

end DiagramScene.Svg
