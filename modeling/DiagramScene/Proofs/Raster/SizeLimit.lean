import Mathlib
import DiagramScene.Proofs.Raster.PixelSize

/-!
# The bound on the size of an image

A bound makes the scale smaller where the longer side of a drawing would exceed it.  Only then are
the sides counted in whole pixels, and a started pixel counts as a whole one.  So the longer side of
an image has the pixels of the smaller of two lengths, that of the longer side in the wanted scale
and the bound (`longest_pixelSize`), and a bound that is no whole number is exceeded by the image
that reaches it.

The main statement is `keepsTo_pixelSize_iff`: it says which images keep to their bound, and that
none has more pixels than the bound rounded up.
-/

namespace DiagramScene.Raster

/-- The number of pixels of the longer side. -/
def PixelSize.longest (size : PixelSize ℚ) : Nat := max size.width size.height

/-- Both sides of an image keep to a bound. -/
def PixelSize.KeepsTo (size : PixelSize ℚ) (bound : ℚ) : Prop :=
  (size.width : ℚ) ≤ bound ∧ (size.height : ℚ) ≤ bound

/-- The sides of an image keep to a bound that is not negative if the longer one keeps to the whole
pixels of the bound. -/
theorem PixelSize.keepsTo_iff {size : PixelSize ℚ} {bound : ℚ} (hbound : 0 ≤ bound) :
    size.KeepsTo bound ↔ size.longest ≤ ⌊bound⌋₊ := by
  rw [KeepsTo, longest, max_le_iff, Nat.le_floor_iff hbound, Nat.le_floor_iff hbound]

/-- A bound that is at least one is wanted. -/
theorem wantedBound_some {bound : ℚ} (hbound : 1 ≤ bound) :
    wantedBound (some bound) = some bound := by
  have hpos : 0 < bound := one_pos.trans_le hbound
  rw [wantedBound, Option.bind_some, Scalar.positive?_rat, if_pos hpos]

/-- In the fitted scale a side of some length has its length in the wanted scale, or that of the
bound. -/
theorem fittedScale_mul {longest scale bound : ℚ} (hlongest : 0 ≤ longest) (hbound : 0 < bound) :
    fittedScale longest scale (some bound) * longest = min (scale * longest) bound := by
  have hpos : ∀ b ∈ some bound, 0 < b := fun b hb => Option.mem_some.mp hb ▸ hbound
  rcases le_or_gt (scale * longest) bound with hkeeps | hexceeds
  · have hwanted : fittedScale longest scale (some bound) = scale :=
      fittedScale_of_le fun b hb => Option.mem_some.mp hb ▸ hkeeps
    rw [hwanted, min_eq_left hkeeps]
  · have hlong : 0 < longest := longest_pos hlongest hpos rfl hexceeds
    rw [fittedScale_of_lt rfl hexceeds, div_mul_cancel₀ _ hlong.ne', min_eq_right hexceeds.le]

/-- The longer side of an image has the pixels of the longer side of the drawing in the wanted
scale, or of the bound. -/
theorem longest_pixelSize {width height bound : ℚ} (hlongest : 0 ≤ max width height)
    (hbound : 1 ≤ bound) (scale : Option ℚ) :
    (pixelSize width height scale (some bound)).longest =
      pixels (min (wantedScale scale * max width height) bound) := by
  have hpos : 0 < bound := one_pos.trans_le hbound
  have hnonneg : 0 ≤ fittedScale (max width height) (wantedScale scale) (some bound) := by
    refine fittedScale_nonneg hlongest (fun b hb => ?_) (wantedScale_pos scale).le
    exact Option.mem_some.mp hb ▸ hpos
  rw [pixelSize_rat, wantedBound_some hbound, PixelSize.longest]
  dsimp only
  rw [← pixels_mono.map_max, ← mul_max_of_nonneg _ _ hnonneg, fittedScale_mul hlongest hpos]

/-- A side has at most so many pixels if its length is at most that number, or if no side has
more. -/
theorem pixels_le_iff {side : ℚ} {count : Nat} (hcount : 1 ≤ count) :
    pixels side ≤ count ↔ side ≤ count ∨ sideMax ≤ count := by
  rw [pixels_rat, max_le_iff, min_le_iff, Nat.ceil_le]
  constructor
  · rintro ⟨-, hmax | hside⟩
    · exact .inr hmax
    · exact .inl hside
  · rintro (hside | hmax)
    · exact ⟨hcount, .inr hside⟩
    · exact ⟨hcount, .inl hmax⟩

/-- An image keeps to its bound exactly if the drawing in the wanted scale keeps to the whole pixels
of the bound, if the bound is a whole number, or if no side exceeds it.  In any case it keeps to the
bound rounded up. -/
theorem keepsTo_pixelSize_iff {width height bound : ℚ} (hwidth : 0 ≤ width) (hbound : 1 ≤ bound)
    (scale : Option ℚ) :
    let size := pixelSize width height scale (some bound)
    (size.KeepsTo bound ↔
        wantedScale scale * max width height ≤ ⌊bound⌋₊ ∨ (⌊bound⌋₊ : ℚ) = bound ∨
          sideMax ≤ ⌊bound⌋₊) ∧
      size.KeepsTo ⌈bound⌉₊ := by
  intro size
  have hnonneg : 0 ≤ bound := zero_le_one.trans hbound
  have hlongest : size.longest = pixels (min (wantedScale scale * max width height) bound) :=
    longest_pixelSize (le_max_of_le_left hwidth) hbound scale
  constructor
  · have hone : 1 ≤ ⌊bound⌋₊ := Nat.floor_pos.mpr hbound
    have hwhole : bound ≤ ⌊bound⌋₊ ↔ (⌊bound⌋₊ : ℚ) = bound :=
      ⟨fun h => le_antisymm (Nat.floor_le hnonneg) h, fun h => h.ge⟩
    rw [PixelSize.keepsTo_iff hnonneg, hlongest, pixels_le_iff hone, min_le_iff, hwhole, or_assoc]
  · have hone : 1 ≤ ⌈bound⌉₊ := Nat.one_le_ceil_iff.mpr (one_pos.trans_le hbound)
    have hup : min (wantedScale scale * max width height) bound ≤ ⌈bound⌉₊ :=
      (min_le_right _ _).trans (Nat.le_ceil bound)
    rw [PixelSize.keepsTo_iff (Nat.cast_nonneg _), Nat.floor_natCast, hlongest, pixels_le_iff hone]
    exact .inl hup

/-- A drawing that is made smaller keeps to a whole bound, and to a bound with a fraction if it is
small enough as it is. -/
theorem keepsTo_wholeBound :
    (pixelSize 300 200 (some 2) (some 100)).KeepsTo 100 ∧
      (pixelSize 40 30 none (some (101 / 2))).KeepsTo (101 / 2) := by
  constructor
  · refine (keepsTo_pixelSize_iff (by norm_num) (by norm_num) (some 2)).1.mpr (.inr (.inl ?_))
    norm_num
  · refine (keepsTo_pixelSize_iff (by norm_num) (by norm_num) none).1.mpr (.inl ?_)
    norm_num [wantedScale]

/-- A bound with a fraction is exceeded by the image that is made as large as it admits. -/
theorem not_keepsTo_fractionalBound :
    ¬ ∀ (width height bound : ℚ) (scale : Option ℚ), 0 ≤ width → 0 ≤ height → 1 ≤ bound →
      (pixelSize width height scale (some bound)).KeepsTo bound := by
  intro h
  have hwide : (pixelSize (100 : ℚ) 50 none (some (101 / 2))).width = 51 := by decide +kernel
  have hkeeps := (h 100 50 (101 / 2) none (by norm_num) (by norm_num) (by norm_num)).1
  rw [hwide] at hkeeps
  norm_num at hkeeps

end DiagramScene.Raster
