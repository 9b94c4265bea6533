import Mathlib
import DiagramScene.Number.Notation
import DiagramScene.Proofs.Json.NumberText
import DiagramScene.Proofs.Number.Parts
import DiagramScene.Proofs.Number.Shortest

/-!
# Plain decimals

The notation `plain` writes finite numbers by place value.  What it writes is a plain decimal in the
sense of `IsPlainDecimal`: digits, at most one point between them, and a minus sign only if a digit
other than zero follows.  An infinity is written with letters.
-/

namespace DiagramScene.Number

/-- Decimal digits, one at least. -/
def IsDigits (cs : List Char) : Prop := cs ≠ [] ∧ ∀ c ∈ cs, c.isDigit = true

/-- Digits, and maybe a point with more digits behind it. -/
inductive IsMagnitude : List Char → Prop
  | whole {digits : List Char} (h : IsDigits digits) : IsMagnitude digits
  | fractional {digits places : List Char} (h : IsDigits digits) (hplaces : IsDigits places) :
    IsMagnitude (digits ++ '.' :: places)

/-- A decimal number without an exponent.  There is no sign in front of a zero. -/
inductive IsPlainDecimal : List Char → Prop
  | unsigned {cs : List Char} (h : IsMagnitude cs) : IsPlainDecimal cs
  | negative {cs : List Char} (h : IsMagnitude cs) (hne : ∃ c ∈ cs, c.isDigit = true ∧ c ≠ '0') :
    IsPlainDecimal ('-' :: cs)

/-! ### The characters of a plain decimal -/

theorem IsMagnitude.mem_cases {cs : List Char} (h : IsMagnitude cs) {c : Char} (hc : c ∈ cs) :
    c.isDigit = true ∨ c = '.' := by
  cases h with
  | whole h => exact .inl (h.2 c hc)
  | fractional h hplaces =>
    rw [List.mem_append, List.mem_cons] at hc
    obtain hc | rfl | hc := hc
    · exact .inl (h.2 c hc)
    · exact .inr rfl
    · exact .inl (hplaces.2 c hc)

theorem IsPlainDecimal.mem_cases {cs : List Char} (h : IsPlainDecimal cs) {c : Char} (hc : c ∈ cs) :
    c.isDigit = true ∨ c = '.' ∨ c = '-' := by
  cases h with
  | unsigned h => exact (h.mem_cases hc).imp_right .inl
  | negative h =>
    obtain rfl | hc := List.mem_cons.mp hc
    · exact .inr (.inr rfl)
    · exact (h.mem_cases hc).imp_right .inl

/-- The word for an infinity is not a plain decimal. -/
theorem not_isPlainDecimal_of_mem {cs : List Char} (h : 'i' ∈ cs) : ¬ IsPlainDecimal cs :=
  fun hplain => absurd (hplain.mem_cases h) (by decide)

/-! ### Digits by place value -/

/-- The digits of a number. -/
theorem isDigits_toDigits (n : Nat) : IsDigits (Nat.toDigits 10 n) :=
  ⟨Nat.toDigits_ne_nil, fun _ hc => Nat.isDigit_of_mem_toDigits (by decide) (by decide) hc⟩

/-- The first digit of a number above zero is not a zero. -/
theorem exists_digit_ne_zero {n : Nat} (h : 0 < n) :
    ∃ c ∈ Nat.toDigits 10 n, c.isDigit = true ∧ c ≠ '0' := by
  obtain ⟨c, cs, hdigits⟩ := List.exists_cons_of_ne_nil (Nat.toDigits_ne_nil (b := 10) (n := n))
  have hc : c ∈ Nat.toDigits 10 n := hdigits ▸ List.mem_cons_self
  refine ⟨c, hc, (isDigits_toDigits n).2 c hc, ?_⟩
  rintro rfl
  exact Json.toDigits_ne_cons_zero h cs hdigits

/-- Zeros do not keep a text from consisting of digits. -/
theorem isDigit_of_mem_replicate {n : Nat} {c : Char} (hc : c ∈ List.replicate n '0') :
    c.isDigit = true := by
  rw [List.eq_of_mem_replicate hc]
  rfl

/-- Digits that are written by place value. -/
theorem isMagnitude_positional {digits : List Char} (h : IsDigits digits) (exponent : Int) :
    IsMagnitude (positional false digits exponent) := by
  obtain ⟨hne, hdigits⟩ := h
  unfold positional
  split
  · rw [if_neg Bool.false_ne_true, List.append_nil]
    refine .whole ⟨List.append_ne_nil_of_left_ne_nil hne _, fun c hc => ?_⟩
    exact (List.mem_append.mp hc).elim (hdigits c) isDigit_of_mem_replicate
  · dsimp only
    split
    · rename_i hplaces
      refine .fractional ⟨?_, fun c hc => hdigits c (List.mem_of_mem_take hc)⟩
        ⟨?_, fun c hc => hdigits c (List.mem_of_mem_drop hc)⟩
      · rw [← List.length_pos_iff, List.length_take]
        omega
      · rw [← List.length_pos_iff, List.length_drop]
        omega
    · have hzero : IsDigits ['0'] :=
        ⟨List.cons_ne_nil _ _, fun c hc => List.mem_singleton.mp hc ▸ rfl⟩
      refine .fractional hzero ⟨List.append_ne_nil_of_right_ne_nil _ hne, fun c hc => ?_⟩
      exact (List.mem_append.mp hc).elim isDigit_of_mem_replicate (hdigits c)

/-- No digit gets lost. -/
theorem mem_positional {digits : List Char} {c : Char} (hc : c ∈ digits) (exponent : Int) :
    c ∈ positional false digits exponent := by
  unfold positional
  split
  · simp [hc]
  · dsimp only
    split
    · rw [List.mem_append, List.mem_cons]
      rw [← List.take_append_drop (digits.length - (-exponent).toNat) digits,
        List.mem_append] at hc
      exact hc.imp_right .inr
    · simp [hc]

/-! ### Numbers in plain notation -/

/-- A number other than a negative zero is written as a plain decimal. -/
theorem isPlainDecimal_chars {x : Float} {d : Dyadic} (h : Dyadic.ofFloat? x = some d)
    (hm : d.significand < 2 ^ 53) (hzero : d.negative = true → 0 < d.significand) :
    IsPlainDecimal (plain.chars x) := by
  have hrender := isMagnitude_positional
    (isDigits_toDigits (shortest .nearestAway d.significand d.exponent).digits)
    (shortest .nearestAway d.significand d.exponent).exponent
  rw [Format.chars, h]
  dsimp only
  split
  · rename_i hnegative
    have hpos := shortest_digits_pos (hzero hnegative) hm d.exponent
    obtain ⟨c, hc, hdigit⟩ := exists_digit_ne_zero hpos
    exact .negative hrender ⟨c, mem_positional hc _, hdigit⟩
  · exact .unsigned hrender

end DiagramScene.Number
