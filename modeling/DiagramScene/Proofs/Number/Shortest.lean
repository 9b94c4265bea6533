import Mathlib
import DiagramScene.Number.Shortest

/-!
# Shortest decimals are found

`shortest` tries the grids of decimals with one digit, two digits and so on up to seventeen.  The
points of the last grid lie so close together that the one next to a number reads back as the number
(`isSome_onGrid?`), so that the search ends with a hit.  A number above zero is not written as zero
therefore, which is `shortest_digits_pos`.
-/

namespace DiagramScene.Number

/-! ### Digits -/

/-- A number is below the power of ten with as many zeros as it has digits. -/
theorem lt_pow_digitCount (n : Nat) : n < 10 ^ digitCount n := by
  unfold digitCount
  split
  · rename_i hzero
    rw [hzero]
    decide
  · exact (Nat.length_toDigits_le_iff (by decide) Nat.length_toDigits_pos).mp le_rfl

/-- A number above zero is at least the power of ten with as many digits. -/
theorem pow_digitCount_le {n : Nat} (h : 0 < n) : 10 ^ (digitCount n - 1) ≤ n := by
  rw [digitCount, if_neg h.ne']
  by_contra hlt
  rcases Nat.eq_zero_or_pos ((Nat.toDigits 10 n).length - 1) with hzero | hpos
  · rw [hzero] at hlt
    omega
  · have hle := (Nat.length_toDigits_le_iff (by decide) hpos).mpr (not_le.mp hlt)
    omega

/-- The first digit of a fraction has the place of its leading exponent, or a higher one. -/
theorem zpow_leadingExponent_le {num den : Nat} (hnum : 0 < num) (hden : 0 < den) :
    (10 : ℚ) ^ leadingExponent num den ≤ num / den := by
  have hden' : (0 : ℚ) < den := by exact_mod_cast hden
  unfold leadingExponent
  split
  · rename_i hle
    have hquotient : 0 < num / den := Nat.div_pos hle hden
    have hcount : 0 < digitCount (num / den) := by
      by_contra hzero
      have hlt := lt_pow_digitCount (num / den)
      rw [Nat.eq_zero_of_not_pos hzero] at hlt
      omega
    have hexponent : (digitCount (num / den) : Int) - 1 = (digitCount (num / den) - 1 : Nat) := by
      omega
    have hpow : 10 ^ (digitCount (num / den) - 1) * den ≤ num :=
      (Nat.mul_le_mul_right den (pow_digitCount_le hquotient)).trans (Nat.div_mul_le_self num den)
    rw [hexponent, zpow_natCast, le_div_iff₀ hden']
    exact_mod_cast hpow
  · have hpow : den ≤ 10 ^ digitCount ((den - 1) / num) * num := by
      have hlt := (Nat.div_lt_iff_lt_mul hnum).mp (lt_pow_digitCount ((den - 1) / num))
      omega
    rw [zpow_neg, zpow_natCast, inv_eq_one_div, div_le_div_iff₀ (by positivity) hden', one_mul,
      mul_comm]
    exact_mod_cast hpow

/-! ### Hits -/

/-- Rounding to the nearest whole number is off by one half at most. -/
theorem nearestAway_bounds (num : Nat) {den : Nat} (h : 0 < den) :
    let k := Rounding.nearestAway.magnitude false num den
    2 * num ≤ 2 * (k * den) + den ∧ 2 * (k * den) ≤ 2 * num + den := by
  have hsplit : num / den * den + num % den = num := Nat.div_add_mod' num den
  have hrest : num % den < den := Nat.mod_lt num h
  have habove : (num / den + 1) * den = num / den * den + den := Nat.succ_mul _ _
  simp only [Rounding.magnitude]
  split
  · split
    · omega
    · rw [habove]
      omega
  · omega

/-- The range of a number: half of the distance to the next number on both sides.  Below a power of
two the distance is half of that above. -/
structure ReadBack.Spans (r : ReadBack) (m below unit : Nat) : Prop where
  low_pos : 0 < r.low
  low_add : r.low + below * unit = r.value
  value_eq : r.value = 4 * m * unit
  high_eq : r.high = r.value + 2 * unit
  den_pos : 0 < r.den
  below_cases : below = 2 ∨ below = 1 ∧ m = hiddenBit

/-- A number in its range is above zero. -/
theorem ReadBack.Spans.value_pos {r : ReadBack} {m below unit : Nat} (h : r.Spans m below unit) :
    0 < r.value :=
  h.low_pos.trans_le (h.low_add ▸ Nat.le_add_right _ _)

/-- The range of a number is not empty. -/
theorem ReadBack.Spans.unit_pos {r : ReadBack} {m below unit : Nat} (h : r.Spans m below unit) :
    0 < unit :=
  Nat.pos_of_mul_pos_left (h.value_eq ▸ h.value_pos)

namespace ReadBack

/-- A number above zero has such a range. -/
theorem exists_spans {m : Nat} (hm : 0 < m) (e : Int) :
    ∃ below unit, (ofDyadic m e).Spans m below unit := by
  obtain ⟨below, hbelow, hcases⟩ : ∃ below, below = (if m = hiddenBit ∧ -1074 < e then 1 else 2) ∧
      (below = 2 ∨ below = 1 ∧ m = hiddenBit) := by
    by_cases h : m = hiddenBit ∧ -1074 < e
    · exact ⟨1, (if_pos h).symm, .inr ⟨rfl, h.1⟩⟩
    · exact ⟨2, (if_neg h).symm, .inl rfl⟩
  obtain ⟨unit, hunit, hpos⟩ : ∃ unit, unit = (if 0 ≤ e then power 2 e.toNat else 1) ∧
      0 < unit := by
    refine ⟨_, rfl, ?_⟩
    split
    · exact Nat.pow_pos (by decide)
    · decide
  have hle : below < 4 * m := by omega
  refine ⟨below, unit, ?_, ?_, ?_, ?_, ?_, hcases⟩
  · simp only [ofDyadic, ← hbelow, ← hunit]
    exact Nat.mul_pos (by omega) hpos
  · simp only [ofDyadic, ← hbelow, ← hunit]
    rw [← Nat.add_mul, Nat.sub_add_cancel hle.le]
  · simp only [ofDyadic, ← hunit]
  · simp only [ofDyadic, ← hunit]
    rw [Nat.add_mul]
  · simp only [ofDyadic]
    split
    · decide
    · exact Nat.mul_pos (by decide) (Nat.pow_pos (by decide))

variable {r : ReadBack} {m below unit : Nat}

/-- A fraction within the range reads back. -/
theorem contains_of_lt {num den : Nat} (hlow : r.low * den < num * r.den)
    (hhigh : num * r.den < r.high * den) : r.contains num den = true := by
  unfold contains
  split
  · simp [hlow.le, hhigh.le]
  · simp [hlow, hhigh]

/-- What reads back as a number above zero is above zero. -/
theorem pos_of_contains {num den : Nat} (hlow : 0 < r.low) (hden : 0 < den)
    (h : r.contains num den = true) : 0 < num := by
  have hpos : 0 < r.low * den := Nat.mul_pos hlow hden
  have hle : r.low * den ≤ num * r.den := by
    unfold contains at h
    split at h <;> simp only [Bool.and_eq_true, decide_eq_true_eq] at h
    · exact h.1
    · exact h.1.le
  exact Nat.pos_of_mul_pos_right (hpos.trans_le hle)

/-- The decimals with the digits of the seventeenth place lie closer together than the numbers, so
that the nearest one reads back. -/
theorem contains_nearestAway (h : r.Spans m below unit) (hm : m < 2 ^ 53) {up down : Nat}
    (hup : 0 < up) (hdown : 0 < down) (hgrid : 10 ^ 16 * (r.den * up) ≤ r.value * down) :
    r.contains (Rounding.nearestAway.magnitude false (r.value * down) (r.den * up) * up) down =
      true := by
  have hstep : 0 < r.den * up := Nat.mul_pos h.den_pos hup
  obtain ⟨hlow, hhigh⟩ := nearestAway_bounds (r.value * down) hstep
  generalize Rounding.nearestAway.magnitude false (r.value * down) (r.den * up) = k at hlow hhigh ⊢
  have hm : 2 * m < below * 10 ^ 16 := by
    rcases h.below_cases with rfl | ⟨rfl, rfl⟩
    · omega
    · decide
  have hbelow : below * (unit * down) ≤ 2 * (unit * down) :=
    Nat.mul_le_mul_right _ (by rcases h.below_cases with h | h <;> omega)
  have hvalue : r.value * down = 4 * m * (unit * down) := by
    rw [h.value_eq, Nat.mul_assoc]
  have hunit : 0 < unit * down := Nat.mul_pos h.unit_pos hdown
  have hgap : r.den * up < 2 * (below * (unit * down)) := by
    refine Nat.lt_of_mul_lt_mul_left (a := 10 ^ 16) ?_
    calc 10 ^ 16 * (r.den * up) ≤ r.value * down := hgrid
      _ = 2 * (2 * m) * (unit * down) := by rw [hvalue]; ring
      _ < 2 * (below * 10 ^ 16) * (unit * down) :=
        (Nat.mul_lt_mul_right hunit).mpr ((Nat.mul_lt_mul_left (by decide)).mpr hm)
      _ = 10 ^ 16 * (2 * (below * (unit * down))) := by ring
  have hpoint : k * up * r.den = k * (r.den * up) := by ring
  have hends : r.low * down + below * (unit * down) = r.value * down := by
    rw [← h.low_add]
    ring
  have htop : r.high * down = r.value * down + 2 * (unit * down) := by
    rw [h.high_eq]
    ring
  apply contains_of_lt
  · omega
  · omega

/-- The place of the last digit as a fraction. -/
theorem exists_place (e : Int) : ∃ up down : Nat,
    (if 0 ≤ e then power 10 e.toNat else 1) = up ∧
      (if 0 ≤ e then 1 else power 10 (-e).toNat) = down ∧
        0 < up ∧ 0 < down ∧ (up : ℚ) = 10 ^ e * down := by
  refine ⟨_, _, rfl, rfl, ?_⟩
  split
  · rename_i hsign
    obtain ⟨n, rfl⟩ := Int.eq_ofNat_of_zero_le hsign
    refine ⟨Nat.pow_pos (by decide), by decide, ?_⟩
    simp [power]
  · rename_i hsign
    obtain ⟨n, hn⟩ := Int.eq_ofNat_of_zero_le (neg_nonneg.mpr (not_le.mp hsign).le)
    obtain rfl : e = -n := by omega
    refine ⟨by decide, Nat.pow_pos (by decide), ?_⟩
    simp [power]

/-- A decimal on a grid that is a hit has digits other than zeros. -/
theorem digits_pos_of_onGrid? {rule : Rounding} {e : Int} {d : Decimal} (hlow : 0 < r.low)
    (h : r.onGrid? rule e = some d) : 0 < d.digits := by
  obtain ⟨up, down, hup, hdown, -, hpos, -⟩ := exists_place e
  simp only [onGrid?, hup, hdown] at h
  generalize rule.magnitude false (r.value * down) (r.den * up) = first at h
  generalize (if first = r.value * down / (r.den * up) then _ else _) = second at h
  split at h
  · rename_i hhit
    obtain rfl := Option.some.inj h
    exact Nat.pos_of_mul_pos_right (pos_of_contains hlow hpos hhit)
  · split at h
    · rename_i hhit
      obtain rfl := Option.some.inj h
      exact Nat.pos_of_mul_pos_right (pos_of_contains hlow hpos hhit)
    · exact absurd h nofun

/-- A grid whose place is the seventeenth of the number has a hit. -/
theorem isSome_onGrid? (h : r.Spans m below unit) (hm : m < 2 ^ 53) {e : Int}
    (he : (10 : ℚ) ^ (e + 16) ≤ r.value / r.den) :
    (r.onGrid? .nearestAway e).isSome = true := by
  obtain ⟨up, down, hup, hdown, hup0, hdown0, hplace⟩ := exists_place e
  have hden : (0 : ℚ) < r.den := by exact_mod_cast h.den_pos
  have hgrid : 10 ^ 16 * (r.den * up) ≤ r.value * down := by
    rw [zpow_add₀ (by decide), le_div_iff₀ hden] at he
    have hle : (10 : ℚ) ^ 16 * (r.den * up) ≤ r.value * down := by
      calc (10 : ℚ) ^ 16 * (r.den * up) = 10 ^ e * 10 ^ (16 : Int) * r.den * down := by
            rw [hplace]
            norm_cast
            ring
        _ ≤ r.value * down := mul_le_mul_of_nonneg_right he (Nat.cast_nonneg _)
    exact_mod_cast hle
  simp only [onGrid?, hup, hdown]
  rw [if_pos (contains_nearestAway h hm hup0 hdown0 hgrid)]
  rfl

/-- The search ends with a hit if there is one on the grids that it tries. -/
theorem digits_pos_search {rule : Rounding} {leading : Int} (hlow : 0 < r.low) {left count : Nat}
    (h : (r.onGrid? rule (leading - (count + left : Nat) + 1)).isSome = true) :
    0 < (r.search rule leading (left + 1) count).digits := by
  induction left generalizing count with
  | zero =>
    obtain ⟨d, hd⟩ := Option.isSome_iff_exists.mp h
    rw [Nat.add_zero] at hd
    rw [search, hd]
    exact digits_pos_of_onGrid? hlow hd
  | succ left ih =>
    rw [search]
    split
    · rename_i hd
      exact digits_pos_of_onGrid? hlow hd
    · apply ih
      rwa [Nat.add_right_comm, Nat.add_assoc]

end ReadBack

/-- Dropping zeros at the end leaves the other digits. -/
theorem Decimal.digits_pos_strip {d : Decimal} (h : 0 < d.digits) : 0 < d.strip.digits := by
  unfold strip
  generalize digitCount d.digits = n
  induction n generalizing d with
  | zero => exact h
  | succ n ih =>
    rw [strip.go]
    split
    · apply ih
      change 0 < d.digits / 10
      omega
    · exact h

/-- A number above zero has a shortest decimal above zero. -/
theorem shortest_digits_pos {m : Nat} (hpos : 0 < m) (hm : m < 2 ^ 53) (e : Int) :
    0 < (shortest .nearestAway m e).digits := by
  obtain ⟨below, unit, hspans⟩ := ReadBack.exists_spans hpos e
  rw [shortest, if_neg hpos.ne']
  apply Decimal.digits_pos_strip
  apply ReadBack.digits_pos_search hspans.low_pos
  apply ReadBack.isSome_onGrid? hspans hm
  have hexponent := zpow_leadingExponent_le hspans.value_pos hspans.den_pos
  convert hexponent using 2
  push_cast
  ring

end DiagramScene.Number
