import Mathlib
import DiagramScene.Proofs.Number.Exact
import DiagramScene.Raster.Geometry

/-!
# The size of an image in exact arithmetic

The scale in which a drawing fits is the greatest one that is at most the wanted scale and keeps the
longer side within the bound (`le_fittedScale_iff`).  So it is at most the wanted scale, it keeps to
the bound, and it grows with both.

A side is rounded up to whole pixels, so that nothing is cropped, unless it takes more of them than
a side can have (`measures_pixels`).  The main statement is `scaledToFit_pixelSize`.
-/

namespace DiagramScene

namespace Raster

/-! ### Pixels -/

/-- The number of pixels of a side: it is rounded up. -/
theorem pixels_rat (side : ℚ) : pixels side = max 1 (min sideMax ⌈side⌉₊) := by
  have hwhole : ⌊(⌈side⌉ : ℚ)⌋₊ = ⌈side⌉₊ := by
    rw [← Int.floor_toNat, Int.floor_intCast, Int.ceil_toNat]
  change max 1 (min sideMax ⌊(⌈side⌉ : ℚ)⌋₊) = _
  rw [hwhole]

/-- A longer side has at least as many pixels. -/
theorem pixels_mono : Monotone (pixels : ℚ → Nat) := by
  intro side side' hle
  rw [pixels_rat, pixels_rat]
  exact max_le_max_left 1 (min_le_min_left sideMax (Nat.ceil_mono hle))

/-- How a side is measured in pixels: it has at least one, less than one more than its length unless
that is all, and as many as its length, exactly if this number is in range. -/
structure Measures (side : ℚ) (count : Nat) : Prop where
  one_le : 1 ≤ count
  lt_add_one : (count : ℚ) < side + 1 ∨ count = 1
  le_iff : side ≤ count ↔ ⌈side⌉ < 2 ^ 32

/-- The pixels of a side measure it. -/
theorem measures_pixels {side : ℚ} (h : 0 ≤ side) : Measures side (pixels side) where
  one_le := by
    rw [pixels_rat]
    exact le_max_left _ _
  lt_add_one := by
    rw [pixels_rat]
    rcases le_total (min sideMax ⌈side⌉₊) 1 with hone | hmore
    · exact .inr (max_eq_left hone)
    · left
      rw [max_eq_right hmore]
      calc ((min sideMax ⌈side⌉₊ : ℕ) : ℚ)
        _ ≤ ⌈side⌉₊ := Nat.cast_le.mpr (min_le_right _ _)
        _ < side + 1 := Nat.ceil_lt_add_one h
  le_iff := by
    have hcast : (⌈side⌉₊ : ℤ) = ⌈side⌉ := Int.natCast_ceil_eq_ceil h
    rw [pixels_rat, ← Nat.ceil_le, sideMax]
    omega

/-! ### Scales -/

/-- The scale that is wanted: one, unless a positive one is stated. -/
def wantedScale (scale : Option ℚ) : ℚ := (scale.bind Scalar.positive?).getD 1

/-- The bound that is wanted: none, unless a positive one is stated. -/
def wantedBound (bound : Option ℚ) : Option ℚ := bound.bind Scalar.positive?

/-- The scale in which a drawing with a longest side fits. -/
def fittedScale (longest scale : ℚ) : Option ℚ → ℚ
  | none => scale
  | some bound => if bound < scale * longest then bound / longest else scale

/-- The wanted scale is positive. -/
theorem wantedScale_pos (scale : Option ℚ) : 0 < wantedScale scale := by
  unfold wantedScale
  cases scale with
  | none => exact one_pos
  | some s =>
    rw [Option.bind_some, Scalar.positive?_rat]
    split
    · assumption
    · exact one_pos

/-- A bound that is wanted is positive. -/
theorem pos_of_mem_wantedBound {bound : Option ℚ} {b : ℚ} (h : b ∈ wantedBound bound) : 0 < b := by
  obtain ⟨a, -, ha⟩ := Option.bind_eq_some_iff.mp h
  rw [Scalar.positive?_rat] at ha
  split at ha
  · exact Option.some.inj ha ▸ ‹0 < a›
  · exact nomatch ha

section FittedScale

variable {longest scale : ℚ} {bound : Option ℚ} (hlongest : 0 ≤ longest)
  (hbound : ∀ b ∈ bound, 0 < b)

include hlongest hbound

/-- Only a drawing with a side of some length exceeds a bound. -/
theorem longest_pos {b : ℚ} (hb : b ∈ bound) (hexceeds : b < scale * longest) : 0 < longest := by
  refine hlongest.lt_of_ne fun hzero => ?_
  rw [← hzero, mul_zero] at hexceeds
  exact hexceeds.not_gt (hbound b hb)

/-- The fitted scale is the greatest one that is at most the wanted scale and keeps to the bound. -/
theorem le_fittedScale_iff {c : ℚ} :
    c ≤ fittedScale longest scale bound ↔ c ≤ scale ∧ ∀ b ∈ bound, c * longest ≤ b := by
  cases bound with
  | none => simp [fittedScale]
  | some b =>
    simp only [fittedScale, Option.mem_def, Option.some.injEq, forall_eq']
    split
    · rename_i hexceeds
      have hpos : 0 < longest := longest_pos hlongest hbound rfl hexceeds
      rw [le_div_iff₀ hpos]
      refine ⟨fun hle => ⟨?_, hle⟩, And.right⟩
      exact (lt_of_mul_lt_mul_right (hle.trans_lt hexceeds) hlongest).le
    · rename_i hkeeps
      refine ⟨fun hle => ⟨hle, ?_⟩, And.left⟩
      exact (mul_le_mul_of_nonneg_right hle hlongest).trans (not_lt.mp hkeeps)

/-- The fitted scale is at most the wanted one. -/
theorem fittedScale_le : fittedScale longest scale bound ≤ scale :=
  ((le_fittedScale_iff hlongest hbound).mp le_rfl).1

/-- The longer side in the fitted scale keeps to the bound. -/
theorem fittedScale_mul_le {b : ℚ} (hb : b ∈ bound) :
    fittedScale longest scale bound * longest ≤ b :=
  ((le_fittedScale_iff hlongest hbound).mp le_rfl).2 b hb

/-- The fitted scale is not negative. -/
theorem fittedScale_nonneg (hscale : 0 ≤ scale) : 0 ≤ fittedScale longest scale bound := by
  refine (le_fittedScale_iff hlongest hbound).mpr ⟨hscale, fun b hb => ?_⟩
  rw [zero_mul]
  exact (hbound b hb).le

/-- The fitted scale grows with the wanted one and with the bound. -/
theorem fittedScale_le_fittedScale {scale' : ℚ} {bound' : Option ℚ}
    (hbound' : ∀ b' ∈ bound', 0 < b') (hscale : scale ≤ scale')
    (hgrows : ∀ b' ∈ bound', ∃ b ∈ bound, b ≤ b') :
    fittedScale longest scale bound ≤ fittedScale longest scale' bound' := by
  have hwanted : fittedScale longest scale bound ≤ scale' :=
    (fittedScale_le hlongest hbound).trans hscale
  refine (le_fittedScale_iff hlongest hbound').mpr ⟨hwanted, fun b' hb' => ?_⟩
  obtain ⟨b, hb, hle⟩ := hgrows b' hb'
  exact (fittedScale_mul_le hlongest hbound hb).trans hle

end FittedScale

/-- Without an exceeded bound the wanted scale fits. -/
theorem fittedScale_of_le {longest scale : ℚ} {bound : Option ℚ}
    (h : ∀ b ∈ bound, scale * longest ≤ b) : fittedScale longest scale bound = scale := by
  cases bound with
  | none => rfl
  | some b => exact if_neg (not_lt.mpr (h b rfl))

/-- A bound that is exceeded is reached. -/
theorem fittedScale_of_lt {longest scale : ℚ} {bound : Option ℚ} {b : ℚ} (hb : b ∈ bound)
    (h : b < scale * longest) : fittedScale longest scale bound = b / longest := by
  obtain rfl := Option.mem_def.mp hb
  exact if_pos h

/-- In exact arithmetic a drawing is scaled once, so that it fits. -/
theorem fittedDimensions_rat (width height : ℚ) (scale bound : Option ℚ) :
    fittedDimensions width height scale bound = .scaled width height
      (fittedScale (max width height) (wantedScale scale) (wantedBound bound)) := by
  have hone : (1.0 : ℚ) = 1 := by norm_num
  have hscale := wantedScale_pos scale
  have hlongest : (Dimensions.scaled width height (wantedScale scale)).longest =
      wantedScale scale * max width height := by
    rw [Dimensions.longest, Scalar.max_rat]
    change max (width * wantedScale scale) (height * wantedScale scale) = _
    rw [← max_mul_of_nonneg _ _ hscale.le, mul_comm]
  -- The program divides by the side in the wanted scale, which cancels out.
  have hshrunk (b : ℚ) : wantedScale scale * b / (wantedScale scale * max width height) =
      b / max width height := mul_div_mul_left _ _ hscale.ne'
  unfold fittedDimensions
  cases hbound : bound.bind Scalar.positive? with
  | none =>
    have hnone : wantedBound bound = none := hbound
    rw [hone, hnone]
    rfl
  | some b =>
    have hsome : wantedBound bound = some b := hbound
    rw [hone, hsome]
    change (if Scalar.lt b (Dimensions.scaled width height (wantedScale scale)).longest = true then
        .scaled width height (wantedScale scale * b /
          (Dimensions.scaled width height (wantedScale scale)).longest)
      else .scaled width height (wantedScale scale)) =
        Dimensions.scaled width height (fittedScale _ _ (some b))
    simp only [hlongest, hshrunk, Scalar.lt_rat, decide_eq_true_eq, fittedScale]
    split <;> rfl

/-- How an image is sized for a drawing under a scale and a bound on its longer side. -/
structure ScaledToFit (width height scale : ℚ) (bound : Option ℚ) (size : PixelSize ℚ) :
    Prop where
  kept : (∀ b ∈ bound, scale * max width height ≤ b) → size.scale = scale
  shrunk : ∀ b ∈ bound, b < scale * max width height →
    0 < max width height ∧ size.scale = b / max width height
  scale_le : size.scale ≤ scale
  longest_le : ∀ b ∈ bound, size.scale * max width height ≤ b
  width : Measures (size.scale * width) size.width
  height : Measures (size.scale * height) size.height

/-- In exact arithmetic the size of an image is that of the drawing in the fitted scale. -/
theorem pixelSize_rat (width height : ℚ) (scale bound : Option ℚ) :
    pixelSize width height scale bound =
      ⟨pixels (fittedScale (max width height) (wantedScale scale) (wantedBound bound) * width),
        pixels (fittedScale (max width height) (wantedScale scale) (wantedBound bound) * height),
        fittedScale (max width height) (wantedScale scale) (wantedBound bound)⟩ := by
  rw [pixelSize, fittedDimensions_rat, mul_comm _ width, mul_comm _ height]
  rfl

/-- A wish that does not count makes no difference, also where numbers are not exact. -/
theorem pixelSize_of_ignored {β : Type} [Scalar β] (width height : β) {wish : β}
    (other : Option β) (h : Scalar.positive? wish = none) :
    pixelSize width height (some wish) other = pixelSize width height none other ∧
      pixelSize width height other (some wish) = pixelSize width height other none := by
  simp only [pixelSize, fittedDimensions, Option.bind_some, Option.bind_none, h, and_self]

/-- An image is scaled to fit: in the wanted scale if this keeps to the wanted bound, and otherwise
so that the longer side reaches the bound.  It is neither cropped nor empty, and a greater scale, a
greater bound or none never makes a side smaller.  A wish that is not finite and positive does not
count, also where numbers are not exact. -/
theorem scaledToFit_pixelSize {width height : ℚ} (hwidth : 0 ≤ width) (hheight : 0 ≤ height)
    (scale bound : Option ℚ) :
    ScaledToFit width height (wantedScale scale) (wantedBound bound)
        (pixelSize width height scale bound) ∧
      (∀ scale' bound', wantedScale scale ≤ wantedScale scale' →
        (∀ b' ∈ wantedBound bound', ∃ b ∈ wantedBound bound, b ≤ b') →
          (pixelSize width height scale bound).width ≤
              (pixelSize width height scale' bound').width ∧
            (pixelSize width height scale bound).height ≤
              (pixelSize width height scale' bound').height) ∧
      ∀ {β : Type} [Scalar β] (w h wish : β) (other : Option β), Scalar.positive? wish = none →
        pixelSize w h (some wish) other = pixelSize w h none other ∧
          pixelSize w h other (some wish) = pixelSize w h other none := by
  have hlongest : 0 ≤ max width height := le_max_of_le_left hwidth
  have hpos : ∀ b ∈ wantedBound bound, 0 < b := fun b => pos_of_mem_wantedBound
  have hnonneg : 0 ≤ fittedScale (max width height) (wantedScale scale) (wantedBound bound) :=
    fittedScale_nonneg hlongest hpos (wantedScale_pos scale).le
  refine ⟨?_, ?_, fun w h wish other => pixelSize_of_ignored w h other⟩
  · rw [pixelSize_rat]
    exact {
      kept := fittedScale_of_le
      shrunk := fun b hb hexceeds =>
        ⟨longest_pos hlongest hpos hb hexceeds, fittedScale_of_lt hb hexceeds⟩
      scale_le := fittedScale_le hlongest hpos
      longest_le := fun b hb => fittedScale_mul_le hlongest hpos hb
      width := measures_pixels (mul_nonneg hnonneg hwidth)
      height := measures_pixels (mul_nonneg hnonneg hheight) }
  · intro scale' bound' hscale hgrows
    have hpos' : ∀ b ∈ wantedBound bound', 0 < b := fun b => pos_of_mem_wantedBound
    have hle : fittedScale (max width height) (wantedScale scale) (wantedBound bound) ≤
        fittedScale (max width height) (wantedScale scale') (wantedBound bound') :=
      fittedScale_le_fittedScale hlongest hpos hpos' hscale hgrows
    rw [pixelSize_rat, pixelSize_rat]
    exact ⟨pixels_mono (mul_le_mul_of_nonneg_right hle hwidth),
      pixels_mono (mul_le_mul_of_nonneg_right hle hheight)⟩

/-- A bound is exceeded and reached, and a greater one is kept. -/
theorem scaledToFit_boundedImage :
    ScaledToFit 300 200 (wantedScale (some 2)) (wantedBound (some 100))
        (pixelSize 300 200 (some 2) (some 100)) ∧
      (pixelSize (300 : ℚ) 200 (some 2) (some 100)).height ≤
        (pixelSize (300 : ℚ) 200 (some (5 / 2)) (some 1000)).height ∧
      pixelSize (300 : ℚ) 200 (some (-1)) (some 100) = pixelSize 300 200 none (some 100) := by
  have hwidth : (0 : ℚ) ≤ 300 := by norm_num
  have hheight : (0 : ℚ) ≤ 200 := by norm_num
  have hscale : wantedScale (some 2) ≤ wantedScale (some (5 / 2)) := by
    simp only [wantedScale, Option.bind_some, Scalar.positive?_rat]
    norm_num
  have hbound : ∀ b' ∈ wantedBound (some 1000), ∃ b ∈ wantedBound (some 100), b ≤ b' := by
    simp only [wantedBound, Option.bind_some, Scalar.positive?_rat]
    norm_num
  have hwish : Scalar.positive? (-1 : ℚ) = none := by norm_num
  obtain ⟨hfits, hgrows, hignored⟩ := scaledToFit_pixelSize hwidth hheight (some 2) (some 100)
  exact ⟨hfits, (hgrows _ _ hscale hbound).2, (hignored 300 200 (-1) (some 100) hwish).1⟩

/-- The longer side reaches the bound, and the other one is rounded up. -/
example : (pixelSize (300 : ℚ) 200 (some 2) (some 100)).width = 100 ∧
    (pixelSize (300 : ℚ) 200 (some 2) (some 100)).height = 67 := by decide +kernel

end Raster

end DiagramScene
