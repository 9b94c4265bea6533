import Mathlib
import DiagramScene.Json.Printer
import DiagramScene.Proofs.Json.Read
import DiagramScene.Proofs.Reports
import DiagramScene.Proofs.Text.Utf8

/-!
# Numbers in JSON texts

A number ends where its text cannot go on.  So a number that is read from its text alone is also read
in front of anything that does not go on a number, such as a comma or a bracket
(`readValue_num_append`).  Every integer in the 64-bit ranges is read back from its text
(`readsBack_int`).  Not every floating point number is: the digits are put together in several steps
and each of them rounds, so `ReadsBack` is a property of a number.
-/

namespace DiagramScene.Json

/-! ### Behind a number -/

/-- The bytes do not go on a number. -/
def EndsNumber (rest : Bytes) : Prop :=
  ∀ b, rest.head? = some b →
    isDigitByte b = false ∧ b ≠ byte '.' ∧ b ≠ byte 'e' ∧ b ≠ byte 'E'

/-- A number that is read from all of the bytes is also read in front of a rest. -/
abbrev InFront (rest : Bytes) : Except Fault (Json × Bytes) → Except Fault (Json × Bytes) → Prop :=
  Refines fun alone behind => (∃ n, alone.1 = .num n) ∧ behind = (alone.1, alone.2 ++ rest)

/-- No digits are at the start of a rest. -/
theorem EndsNumber.takeWhile {rest : Bytes} (h : EndsNumber rest) :
    rest.takeWhile isDigitByte = [] := by
  cases rest with
  | nil => rfl
  | cons b rest => rw [List.takeWhile_cons, (h b rfl).1, if_neg Bool.false_ne_true]

/-- Nothing is dropped from a rest. -/
theorem EndsNumber.dropWhile {rest : Bytes} (h : EndsNumber rest) :
    rest.dropWhile isDigitByte = rest := by
  cases rest with
  | nil => rfl
  | cons b rest => rw [List.dropWhile_cons, (h b rfl).1, if_neg Bool.false_ne_true]

section InFront

variable {rest : Bytes} (hrest : EndsNumber rest) {negative : Bool}

include hrest

/-- The digits at the start of bytes in front of a rest. -/
theorem leadingDigits_append (s : Bytes) : leadingDigits (s ++ rest) = leadingDigits s := by
  unfold leadingDigits
  rw [List.takeWhile_append, hrest.takeWhile, List.append_nil]
  split <;> rename_i hall
  · rw [hall]
  · rfl

/-- Bytes in front of a rest without the digits at their start. -/
theorem dropWhile_append (s : Bytes) :
    (s ++ rest).dropWhile isDigitByte = s.dropWhile isDigitByte ++ rest := by
  rw [List.dropWhile_append, hrest.dropWhile]
  split <;> rename_i hempty
  · rw [List.isEmpty_iff.mp hempty, List.nil_append]
  · rfl

/-- The digits of a significand in front of a rest. -/
theorem takeDigits_append (significand count : Nat) (s : Bytes) :
    takeDigits significand count (s ++ rest) =
      ((takeDigits significand count s).1, (takeDigits significand count s).2.1,
        (takeDigits significand count s).2.2 ++ rest) := by
  induction s generalizing significand count with
  | nil =>
    cases rest with
    | nil => rfl
    | cons b rest =>
      simp [takeDigits, (hrest b rfl).1]
  | cons b s ih =>
    rw [List.cons_append, takeDigits, takeDigits]
    split
    · exact ih _ _
    · rfl

omit hrest in
/-- A floating point number in front of a rest. -/
theorem inFront_floatOf (significand : Nat) (exponent : Int) (s : Bytes) :
    InFront rest (floatOf negative significand exponent s)
      (floatOf negative significand exponent (s ++ rest)) := by
  unfold floatOf
  cases scale (Float.ofNat significand) exponent 4 with
  | none => exact .error _ _
  | some x => exact .ok ⟨⟨_, rfl⟩, rfl⟩

/-- The digits of an exponent in front of a rest. -/
theorem inFront_readExponent_go (significand : Nat) (start : Int) (down : Bool) (value : Nat)
    (s : Bytes) :
    InFront rest (readExponent.go negative significand start down value s)
      (readExponent.go negative significand start down value (s ++ rest)) := by
  induction s generalizing value with
  | nil =>
    have hfloat : InFront rest
        (floatOf negative significand (if down then start - value else start + value) [])
        (floatOf negative significand (if down then start - value else start + value) rest) :=
      inFront_floatOf significand _ []
    cases rest with
    | nil => exact hfloat
    | cons b rest =>
      rw [List.nil_append, readExponent.go, readExponent.go, (hrest b rfl).1, Bool.not_false,
        if_pos rfl]
      exact hfloat
  | cons b s ih =>
    rw [List.cons_append]
    unfold readExponent.go
    refine .ite (fun _ => inFront_floatOf significand _ (b :: s)) fun _ => ?_
    refine .ite (fun _ => ?_) fun _ => ih _
    refine .ite (fun _ => .error _ _) fun _ => ?_
    rw [dropWhile_append hrest]
    exact .ok ⟨⟨_, rfl⟩, rfl⟩

/-- An exponent without its sign in front of a rest. -/
theorem inFront_unsigned (significand : Nat) (start : Int) (down : Bool) (t : Bytes) :
    InFront rest
      (match t with
        | [] => failBefore .endInValue []
        | b :: u => if !isDigitByte b then failBefore .invalidNumber u
          else readExponent.go negative significand start down (digitOf b) u)
      (match t ++ rest with
        | [] => failBefore .endInValue []
        | b :: u => if !isDigitByte b then failBefore .invalidNumber u
          else readExponent.go negative significand start down (digitOf b) u) := by
  cases t with
  | nil => exact .error _ _
  | cons b u =>
    exact .ite (fun _ => .error _ _) fun _ =>
      inFront_readExponent_go hrest significand start down _ u

/-- An exponent after its mark in front of a rest. -/
theorem inFront_readExponent (significand : Nat) (start : Int) (s : Bytes) :
    InFront rest (readExponent negative significand start s)
      (readExponent negative significand start (s ++ rest)) := by
  cases s with
  | nil => exact .error _ _
  | cons b t =>
    rw [List.cons_append]
    unfold readExponent
    dsimp only
    by_cases hplus : b = byte '+'
    · rw [if_pos hplus, if_pos hplus]
      exact inFront_unsigned hrest significand start false t
    · rw [if_neg hplus, if_neg hplus]
      by_cases hminus : b = byte '-'
      · rw [if_pos hminus, if_pos hminus]
        exact inFront_unsigned hrest significand start true t
      · rw [if_neg hminus, if_neg hminus]
        exact inFront_unsigned hrest significand start false (b :: t)

/-- What follows the digits of a floating point number in front of a rest. -/
theorem inFront_finishFloat (significand : Nat) (exponent : Int) (s : Bytes) :
    InFront rest (finishFloat negative significand exponent s)
      (finishFloat negative significand exponent (s ++ rest)) := by
  cases s with
  | nil =>
    have hfloat : InFront rest (floatOf negative significand exponent [])
        (floatOf negative significand exponent rest) := inFront_floatOf significand exponent []
    rw [List.nil_append]
    cases rest with
    | nil => exact hfloat
    | cons b rest =>
      obtain ⟨-, -, hlower, hupper⟩ := hrest b rfl
      simpa [finishFloat, hlower, hupper] using hfloat
  | cons b t =>
    rw [List.cons_append]
    unfold finishFloat
    exact .ite (fun _ => inFront_readExponent hrest significand exponent t) fun _ =>
      inFront_floatOf significand exponent (b :: t)

/-- The digits after the point in front of a rest. -/
theorem inFront_readFraction (significand : Nat) (exponent : Int) (s : Bytes) :
    InFront rest (readFraction negative significand exponent s)
      (readFraction negative significand exponent (s ++ rest)) := by
  unfold readFraction
  dsimp only
  rw [takeDigits_append hrest]
  dsimp only
  rw [dropWhile_append hrest, List.length_append, List.length_append]
  simp only [Nat.add_right_cancel_iff]
  refine .ite (fun _ => ?_) fun _ => inFront_finishFloat hrest _ _ _
  split
  · exact .error _ _
  · exact .error _ _

omit hrest in
/-- A number without point and exponent in front of a rest. -/
theorem inFront_whole (significand overflow : Nat) (s : Bytes) :
    InFront rest (readNumber.whole negative significand overflow s)
      (readNumber.whole negative significand overflow (s ++ rest)) := by
  unfold readNumber.whole
  refine .ite (fun _ => inFront_floatOf significand overflow s) fun _ => ?_
  refine .ite (fun _ => .ok ⟨⟨_, rfl⟩, rfl⟩) fun _ => ?_
  exact .ite (fun _ => .ok ⟨⟨_, rfl⟩, rfl⟩) fun _ => .ok ⟨⟨_, rfl⟩, rfl⟩

/-- A number after its sign in front of a rest. -/
theorem inFront_readNumber (s : Bytes) :
    InFront rest (readNumber negative s) (readNumber negative (s ++ rest)) := by
  cases s with
  | nil => exact .error _ _
  | cons b t =>
    have hle : leadingDigits (takeDigits (digitOf b) 1 t).2.2 ≤
        (takeDigits (digitOf b) 1 t).2.2.length := (List.takeWhile_prefix _).length_le
    rw [List.cons_append]
    unfold readNumber
    dsimp only
    rw [leadingDigits_append hrest, takeDigits_append hrest]
    dsimp only
    rw [leadingDigits_append hrest, List.drop_append_of_le_length hle]
    refine .ite (fun _ => .error _ _) fun _ => .ite (fun _ => .error _ _) fun _ => ?_
    generalize (takeDigits (digitOf b) 1 t).2.2.drop _ = tail
    generalize leadingDigits _ = overflow
    cases tail with
    | nil =>
      have hwhole : InFront rest
          (readNumber.whole negative (takeDigits (digitOf b) 1 t).1 overflow [])
          (readNumber.whole negative (takeDigits (digitOf b) 1 t).1 overflow rest) :=
        inFront_whole _ overflow []
      rw [List.nil_append]
      cases rest with
      | nil => exact hwhole
      | cons c rest =>
        obtain ⟨-, hpoint, hlower, hupper⟩ := hrest c rfl
        simpa [hpoint, hlower, hupper] using hwhole
    | cons c u =>
      rw [List.cons_append]
      refine .ite (fun _ => inFront_readFraction hrest _ _ u) fun _ => ?_
      exact .ite (fun _ => inFront_readExponent hrest _ _ u) fun _ => inFront_whole _ _ (c :: u)

end InFront

/-! ### Numbers as values -/

/-- Behind a literal name stands the value that it names. -/
theorem eq_of_readIdent {value j : Json} {expected s left : Bytes}
    (h : readIdent value expected s = .ok (j, left)) : j = value := by
  induction expected generalizing s with
  | nil =>
    cases h
    rfl
  | cons e es ih =>
    cases s with
    | nil => cases h
    | cons b s =>
      unfold readIdent at h
      split at h
      · exact ih h
      · cases h

/-- Bytes that do not consist of spaces alone in front of a rest. -/
theorem skipSpace_append {s t : Bytes} {b : UInt8} (h : skipSpace s = b :: t) (rest : Bytes) :
    skipSpace (s ++ rest) = b :: (t ++ rest) := by
  unfold skipSpace at h ⊢
  rw [List.dropWhile_append, h, List.isEmpty_cons, if_neg Bool.false_ne_true, List.cons_append]

/-- A number that is read from all of the bytes is read in front of a rest. -/
theorem readValue_num_append {s left rest : Bytes} {n : Number} (hrest : EndsNumber rest)
    (h : readValue 1 1 s = .ok (.num n, left)) (fuel depth : Nat) :
    readValue (fuel + 1) depth (s ++ rest) = .ok (.num n, left ++ rest) := by
  have hnumber {negative : Bool} {u : Bytes} (h : readNumber negative u = .ok (.num n, left)) :
      readNumber negative (u ++ rest) = .ok (.num n, left ++ rest) := by
    obtain ⟨_, hread, -, rfl⟩ := inFront_readNumber hrest u _ h
    exact hread
  unfold readValue at h ⊢
  cases hs : skipSpace s with
  | nil =>
    rw [hs] at h
    exact nomatch h
  | cons b t =>
    rw [skipSpace_append hs]
    rw [hs] at h
    dsimp only at h ⊢
    by_cases hnull : b = byte 'n'
    · rw [if_pos hnull] at h
      exact nomatch eq_of_readIdent h
    by_cases htrue : b = byte 't'
    · rw [if_neg hnull, if_pos htrue] at h
      exact nomatch eq_of_readIdent h
    by_cases hfalse : b = byte 'f'
    · rw [if_neg hnull, if_neg htrue, if_pos hfalse] at h
      exact nomatch eq_of_readIdent h
    rw [if_neg hnull, if_neg htrue, if_neg hfalse] at h ⊢
    by_cases hminus : b = byte '-'
    · rw [if_pos hminus] at h ⊢
      exact hnumber h
    rw [if_neg hminus] at h ⊢
    by_cases hdigit : isDigitByte b = true
    · rw [if_pos hdigit] at h ⊢
      exact hnumber h
    rw [if_neg hdigit] at h
    split at h
    · obtain ⟨⟨text, rest⟩, -, htext⟩ := bind_eq_ok_iff.mp h
      exact nomatch htext
    · -- with this depth no array and no object is opened
      split at h
      · exact nomatch h
      · split at h
        · exact nomatch h
        · exact nomatch h

/-- A number is read back from its text, to the end of it. -/
def ReadsBack (n : Number) : Prop :=
  readValue 1 1 (Text.Utf8.encode (numberText n)) = .ok (.num n, [])

-- The significand of this number is divided by a power of ten that is rounded itself.
example : (readText (numberText (.float 1.1326571694195231e-13))).toOption.map compact =
    some "1.1326571694195233e-13" := by decide +kernel

/-! ### Integers -/

/-- The byte of a digit. -/
theorem toNat_byte {c : Char} (h : c.isDigit = true) : (byte c).toNat = c.toNat :=
  Text.Utf8.toNat_toUInt8_of_lt
    (lt_of_le_of_lt (Char.isDigit_iff_toNat.mp h).2 (by decide))

/-- A digit is read as one. -/
theorem isDigitByte_byte {c : Char} (h : c.isDigit = true) : isDigitByte (byte c) = true := by
  obtain ⟨hlow, hhigh⟩ := Char.isDigit_iff_toNat.mp h
  rw [isDigitByte, Bool.and_eq_true, decide_eq_true_iff, decide_eq_true_iff, UInt8.le_iff_toNat_le,
    UInt8.le_iff_toNat_le, toNat_byte h]
  exact ⟨hlow, hhigh⟩

/-- The value of a digit is read as it is. -/
theorem digitOf_byte {c : Char} (h : c.isDigit = true) : digitOf (byte c) = c.toNat - '0'.toNat := by
  rw [digitOf, toNat_byte h]
  rfl

/-- More digits make a number no smaller. -/
theorem le_ofDigitChars (cs : List Char) (n : Nat) : n ≤ Nat.ofDigitChars 10 cs n := by
  rw [Nat.ofDigitChars_eq_ofDigitChars_zero]
  have hpow : 1 ≤ 10 ^ cs.length := Nat.one_le_pow _ _ (by decide)
  nlinarith

/-- Digits whose value fits the significand are all read into it. -/
theorem takeDigits_map {cs : List Char} (hdigits : ∀ c ∈ cs, c.isDigit = true)
    {significand : Nat} (hfits : Nat.ofDigitChars 10 cs significand ≤ significandMax)
    (count : Nat) :
    takeDigits significand count (cs.map byte) =
      (Nat.ofDigitChars 10 cs significand, count + cs.length, []) := by
  induction cs generalizing significand count with
  | nil => rfl
  | cons c cs ih =>
    obtain ⟨hc, hcs⟩ := List.forall_mem_cons.mp hdigits
    rw [Nat.ofDigitChars_cons] at hfits ⊢
    have hnext := (le_ofDigitChars cs _).trans hfits
    rw [List.map_cons, takeDigits, isDigitByte_byte hc, digitOf_byte hc, Bool.true_and,
      if_pos (decide_eq_true hnext), ih hcs hfits, List.length_cons, Nat.add_assoc,
      Nat.add_comm 1]

/-- A number above zero does not begin with a zero. -/
theorem toDigits_ne_cons_zero {n : Nat} (h : 0 < n) (cs : List Char) :
    Nat.toDigits 10 n ≠ '0' :: cs := by
  induction n using Nat.strong_induction_on generalizing cs with
  | _ n ih =>
    rw [Nat.toDigits_eq_if (by decide)]
    split
    · rename_i hlt
      interval_cases n <;> simp
    · rename_i hle
      intro heq
      cases hdigits : Nat.toDigits 10 (n / 10) with
      | nil => exact Nat.toDigits_ne_nil hdigits
      | cons c ds =>
        rw [hdigits, List.cons_append, List.cons.injEq] at heq
        exact ih (n / 10) (by omega) (by omega) ds (heq.1 ▸ hdigits)

/-- The digits of a number that fits the significand. -/
theorem readNumber_toDigits (negative : Bool) {n : Nat} (h : n ≤ significandMax) :
    readNumber negative ((Nat.toDigits 10 n).map byte) = readNumber.whole negative n 0 [] := by
  have hdigits : ∀ c ∈ Nat.toDigits 10 n, c.isDigit = true := fun c hc =>
    Nat.isDigit_of_mem_toDigits (by decide) (by decide) hc
  have hvalue : Nat.ofDigitChars 10 (Nat.toDigits 10 n) 0 = n := Nat.ofDigitChars_ten_toDigits
  cases hn : Nat.toDigits 10 n with
  | nil => exact absurd hn Nat.toDigits_ne_nil
  | cons c cs =>
    rw [hn] at hdigits hvalue
    obtain ⟨hc, hcs⟩ := List.forall_mem_cons.mp hdigits
    rw [Nat.ofDigitChars_cons, Nat.mul_zero, Nat.zero_add, ← digitOf_byte hc] at hvalue
    have hzero : (decide (byte c = byte '0') && decide (0 < leadingDigits (cs.map byte))) = false := by
      rw [Bool.and_eq_false_imp, decide_eq_true_iff, decide_eq_false_iff_not]
      intro hbyte hmore
      have hcode : c = '0' := by
        have htoNat := congrArg UInt8.toNat hbyte
        rw [toNat_byte hc, toNat_byte (by decide)] at htoNat
        exact Char.toNat_inj.mp htoNat
      rcases Nat.eq_zero_or_pos n with rfl | hpos
      · rw [Nat.toDigits_zero, List.cons.injEq] at hn
        rw [← hn.2] at hmore
        exact Nat.lt_irrefl 0 hmore
      · exact toDigits_ne_cons_zero hpos cs (hcode ▸ hn)
    rw [List.map_cons, readNumber, isDigitByte_byte hc, hzero, Bool.not_true,
      if_neg Bool.false_ne_true, if_neg Bool.false_ne_true,
      takeDigits_map hcs (hvalue.symm ▸ h), hvalue]
    rfl

/-- The bytes of a whole number of at least zero. -/
theorem encode_repr (n : Nat) :
    Text.Utf8.encode n.repr = (Nat.toDigits 10 n).map byte := by
  rw [Nat.repr_eq_ofList_toDigits, Text.Utf8.encode_of_lt, String.toList_ofList]
  · rfl
  intro c hc
  rw [String.toList_ofList] at hc
  have hdigit : c.isDigit = true := Nat.isDigit_of_mem_toDigits (by decide) (by decide) hc
  exact lt_of_le_of_lt (Char.isDigit_iff_toNat.mp hdigit).2 (by decide)

/-- A value that begins with a digit is a number. -/
theorem readValue_digit {b : UInt8} (h : isDigitByte b = true) (t : Bytes) (fuel depth : Nat) :
    readValue (fuel + 1) depth (b :: t) = readNumber false (b :: t) := by
  have hne {other : UInt8} (hother : isDigitByte other = false) : b ≠ other := by
    rintro rfl
    exact Bool.false_ne_true (hother.symm.trans h)
  have hspace : isSpace b = false := by
    simp only [isSpace, Bool.or_eq_false_iff, decide_eq_false_iff_not]
    exact ⟨⟨⟨hne (by decide), hne (by decide)⟩, hne (by decide)⟩, hne (by decide)⟩
  rw [readValue, skipSpace, List.dropWhile_cons, hspace, if_neg Bool.false_ne_true]
  dsimp only
  rw [if_neg (hne (by decide)), if_neg (hne (by decide)), if_neg (hne (by decide)),
    if_neg (hne (by decide)), if_pos h]

/-- A value that begins with a minus sign is a number. -/
theorem readValue_minus (t : Bytes) (fuel depth : Nat) :
    readValue (fuel + 1) depth (byte '-' :: t) = readNumber true t := by
  rw [readValue]
  rfl

/-- Every integer of 64 bits, with or without a sign, is read back. -/
theorem readsBack_int {n : Int} (h : (Number.int n).InRange) : ReadsBack (.int n) := by
  obtain ⟨hlow, hhigh⟩ := h
  change readValue 1 1 (Text.Utf8.encode (toString n)) = _
  rw [Int.toString_eq_repr, Int.repr_eq_if]
  split
  · rename_i hnonneg
    have hle : n.toNat ≤ significandMax := by
      unfold significandMax
      omega
    cases hdigits : Nat.toDigits 10 n.toNat with
    | nil => exact absurd hdigits Nat.toDigits_ne_nil
    | cons c cs =>
      have hc : c.isDigit = true :=
        Nat.isDigit_of_mem_toDigits (by decide) (by decide) (hdigits ▸ List.mem_cons_self ..)
      have hread := readNumber_toDigits false hle
      rw [encode_repr, hdigits, List.map_cons, readValue_digit (isDigitByte_byte hc)]
      rw [hdigits, List.map_cons] at hread
      rw [hread]
      change Except.ok (num (Number.int n.toNat), []) = _
      rw [Int.toNat_of_nonneg hnonneg]
  · rename_i hneg
    have hle : (-n).toNat ≤ significandMax := by
      unfold significandMax
      omega
    have hfits : ((-n).toNat = 0 || decide (0x8000000000000000 < (-n).toNat)) = false := by
      rw [Bool.or_eq_false_iff, decide_eq_false_iff_not, decide_eq_false_iff_not]
      omega
    have hsign : Text.Utf8.encode "-" = [byte '-'] := by decide +kernel
    rw [Text.Utf8.encode_append, encode_repr, hsign, List.singleton_append, readValue_minus,
      readNumber_toDigits true hle, readNumber.whole, if_neg (Nat.lt_irrefl 0), hfits]
    change Except.ok (num (Number.int (-((-n).toNat : Int))), []) = _
    rw [Int.toNat_of_nonneg (by omega), Int.neg_neg]

end DiagramScene.Json
