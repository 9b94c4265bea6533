import Mathlib
import DiagramScene.Json.Printer
import DiagramScene.Json.Reader
import DiagramScene.Proofs.Text.Utf8

/-!
# Strings in JSON texts

A character is written either as itself or as an escape (`escapedChar_cases`).  A string that is
written is read back up to its closing quote, whatever stands behind it (`readString_stringBytes`).
-/

namespace DiagramScene.Json

open Text.Utf8

/-- The bytes of a string as it is written, without its quotes. -/
def escapedBytes (cs : List Char) : Bytes := (cs.flatMap escapedChar).flatMap String.utf8EncodeChar

/-- The bytes of a string with its quotes. -/
theorem encode_stringText (s : String) :
    encode (stringText s) = byte '"' :: (escapedBytes s.toList ++ [byte '"']) := by
  rw [stringText, encode_ofList, List.cons_append, List.flatMap_cons, List.flatMap_append]
  rfl

/-- The bytes of a string with a first character. -/
theorem escapedBytes_cons (c : Char) (cs : List Char) :
    escapedBytes (c :: cs) =
      (escapedChar c).flatMap String.utf8EncodeChar ++ escapedBytes cs := by
  rw [escapedBytes, List.flatMap_cons, List.flatMap_append, escapedBytes]

/-! ### Characters -/

/-- A hexadecimal digit is read as its value. -/
theorem hexValue?_digitChar {n : Nat} (h : n < 16) : hexValue? (byte (Nat.digitChar n)) = some n := by
  interval_cases n <;> rfl

/-- A hexadecimal digit is one byte. -/
theorem utf8EncodeChar_digitChar {n : Nat} (h : n < 16) :
    String.utf8EncodeChar (Nat.digitChar n) = [byte (Nat.digitChar n)] := by
  interval_cases n <;> rfl

/-- The bytes of a code point are those of the character. -/
theorem encodeCodePoint_toNat (c : Char) : encodeCodePoint c.toNat = String.utf8EncodeChar c := by
  rw [encodeCodePoint, Char.ofNat_toNat, Char.toString, encode_eq_flatMap, String.toList_singleton,
    List.flatMap_cons, List.flatMap_nil, List.append_nil]

/-- A control character is read from its number. -/
theorem readEscape_number {c : Char} (h : c.toNat < 0x20) (s : Bytes) :
    readEscape (byte 'u' :: byte '0' :: byte '0' :: byte (Nat.digitChar (c.toNat / 16)) ::
      byte (Nat.digitChar (c.toNat % 16)) :: s) = .ok (String.utf8EncodeChar c, s) := by
  have hhigh : hexValue? (byte (Nat.digitChar (c.toNat / 16))) = some (c.toNat / 16) :=
    hexValue?_digitChar (by omega)
  have hlow : hexValue? (byte (Nat.digitChar (c.toNat % 16))) = some (c.toNat % 16) :=
    hexValue?_digitChar (Nat.mod_lt _ (by decide))
  have hzero : hexValue? (byte '0') = some 0 := rfl
  have hvalue : ((0 * 16 + 0) * 16 + c.toNat / 16) * 16 + c.toNat % 16 = c.toNat := by omega
  have hhex : readHex (byte '0' :: byte '0' :: byte (Nat.digitChar (c.toNat / 16)) ::
      byte (Nat.digitChar (c.toNat % 16)) :: s) = .ok (c.toNat, s) := by
    rw [readHex, hhigh, hlow, hzero]
    dsimp only
    rw [hvalue]
  have hpoint : readCodePoint (byte '0' :: byte '0' :: byte (Nat.digitChar (c.toNat / 16)) ::
      byte (Nat.digitChar (c.toNat % 16)) :: s) = .ok (c.toNat, s) := by
    have hnotLow : (decide (0xDC00 ≤ c.toNat) && decide (c.toNat ≤ 0xDFFF)) = false := by
      rw [Bool.and_eq_false_imp, decide_eq_true_iff, decide_eq_false_iff_not]
      omega
    have hnotHigh : (decide (c.toNat < 0xD800) || decide (0xDBFF < c.toNat)) = true := by
      rw [Bool.or_eq_true, decide_eq_true_iff]
      exact .inl (by omega)
    rw [readCodePoint, hhex]
    change (if _ then _ else _) = _
    rw [hnotLow, if_neg Bool.false_ne_true, if_pos hnotHigh]
  rw [← encodeCodePoint_toNat, readEscape]
  change (readCodePoint _ >>= fun read => .ok (encodeCodePoint read.1, read.2)) = _
  rw [hpoint]
  rfl

/-- A character is written as an escape that is read back, or as itself. -/
theorem escapedChar_cases (c : Char) :
    (∃ code, escapedChar c = '\\' :: code ∧
      ∀ s, readEscape (code.flatMap String.utf8EncodeChar ++ s) =
        .ok (String.utf8EncodeChar c, s)) ∨
    (escapedChar c = [c] ∧ c ≠ '"' ∧ c ≠ '\\' ∧ 0x20 ≤ c.toNat) := by
  unfold escapedChar
  split
  · exact .inl ⟨['"'], rfl, fun _ => rfl⟩
  · exact .inl ⟨['\\'], rfl, fun _ => rfl⟩
  · exact .inl ⟨['n'], rfl, fun _ => rfl⟩
  · exact .inl ⟨['r'], rfl, fun _ => rfl⟩
  · exact .inl ⟨['t'], rfl, fun _ => rfl⟩
  · exact .inl ⟨['b'], rfl, fun _ => rfl⟩
  · exact .inl ⟨['f'], rfl, fun _ => rfl⟩
  · rename_i hquote hbackslash _ _ _ _ _
    dsimp only
    split
    · rename_i hcontrol
      refine .inl ⟨_, rfl, fun s => ?_⟩
      have hhigh := utf8EncodeChar_digitChar (n := c.toNat / 16) (by omega)
      have hlow := utf8EncodeChar_digitChar (n := c.toNat % 16) (by omega)
      rw [List.flatMap_cons, List.flatMap_cons, List.flatMap_cons, List.flatMap_cons,
        List.flatMap_cons, hhigh, hlow]
      exact readEscape_number hcontrol s
    · rename_i hplain
      exact .inr ⟨rfl, hquote, hbackslash, not_lt.mp hplain⟩

/-! ### Strings -/

/-- Bytes that are no quote, no backslash and no control character are read as they are. -/
theorem readStringBytes_plain {bs : Bytes}
    (h : ∀ b ∈ bs, b ≠ byte '"' ∧ b ≠ byte '\\' ∧ ¬b < 0x20) (fuel : Nat) (acc s : Bytes) :
    readStringBytes (bs.length + fuel) acc (bs ++ s) =
      readStringBytes fuel (bs.reverse ++ acc) s := by
  induction bs generalizing acc with
  | nil => rw [List.length_nil, Nat.zero_add, List.nil_append, List.reverse_nil, List.nil_append]
  | cons b bs ih =>
    obtain ⟨⟨hquote, hbackslash, hcontrol⟩, hbs⟩ := List.forall_mem_cons.mp h
    rw [List.length_cons, Nat.succ_add, List.cons_append, readStringBytes, if_neg hquote, if_neg hbackslash, if_neg hcontrol, ih hbs, List.reverse_cons,
      List.append_assoc, List.singleton_append]

/-- An escape is read as what it stands for. -/
theorem readStringBytes_escape {t u bytes : Bytes} (h : readEscape t = .ok (bytes, u))
    (fuel : Nat) (acc : Bytes) :
    readStringBytes (fuel + 1) acc (byte '\\' :: t) =
      readStringBytes fuel (bytes.reverse ++ acc) u := by
  rw [readStringBytes, if_neg (by decide), if_pos rfl, h]

/-- The bytes of a character that is written as itself are read as they are. -/
theorem plain_utf8EncodeChar {c : Char} (hquote : c ≠ '"') (hbackslash : c ≠ '\\')
    (hcontrol : 0x20 ≤ c.toNat) :
    ∀ b ∈ String.utf8EncodeChar c, b ≠ byte '"' ∧ b ≠ byte '\\' ∧ ¬b < 0x20 := by
  intro b hb
  rcases lt_or_ge c.toNat 0x80 with hascii | hother
  · rw [utf8EncodeChar_of_lt hascii, List.mem_singleton] at hb
    have hcode : b.toNat = c.toNat := by rw [hb, toNat_toUInt8_of_lt hascii]
    refine ⟨?_, ?_, ?_⟩
    · rintro rfl
      exact hquote (Char.toNat_inj.mp hcode.symm)
    · rintro rfl
      exact hbackslash (Char.toNat_inj.mp hcode.symm)
    · rw [UInt8.lt_iff_toNat_lt, hcode]
      exact not_lt.mpr hcontrol
  · have hcode := le_of_mem_utf8EncodeChar hother b hb
    refine ⟨?_, ?_, ?_⟩
    · rintro rfl
      exact absurd hcode (by decide)
    · rintro rfl
      exact absurd hcode (by decide)
    · rw [UInt8.lt_iff_toNat_lt]
      exact not_lt.mpr (le_trans (by decide) hcode)

/-- The bytes of a string are read up to its closing quote. -/
theorem readStringBytes_escapedBytes (cs : List Char) {fuel : Nat}
    (hfuel : (escapedBytes cs).length < fuel) (acc rest : Bytes) :
    readStringBytes fuel acc (escapedBytes cs ++ byte '"' :: rest) =
      .ok (acc.reverse ++ cs.flatMap String.utf8EncodeChar, rest) := by
  induction cs generalizing fuel acc with
  | nil =>
    obtain ⟨fuel, rfl⟩ := Nat.exists_eq_succ_of_ne_zero (Nat.ne_zero_of_lt hfuel)
    rw [List.flatMap_nil, List.append_nil]
    rfl
  | cons c cs ih =>
    rw [escapedBytes_cons, List.length_append] at hfuel
    rw [escapedBytes_cons, List.append_assoc, List.flatMap_cons]
    obtain ⟨code, hcode, hread⟩ | ⟨hcode, hquote, hbackslash, hcontrol⟩ := escapedChar_cases c
    · obtain ⟨fuel, rfl⟩ := Nat.exists_eq_succ_of_ne_zero (Nat.ne_zero_of_lt hfuel)
      have hslash : String.utf8EncodeChar '\\' = [byte '\\'] := rfl
      rw [hcode, List.flatMap_cons, hslash, List.singleton_append] at hfuel ⊢
      rw [List.length_cons] at hfuel
      rw [List.cons_append, readStringBytes_escape (hread _), ih (by omega), List.reverse_append,
        List.reverse_reverse, List.append_assoc]
    · have hplain := plain_utf8EncodeChar hquote hbackslash hcontrol
      rw [hcode, List.flatMap_cons, List.flatMap_nil, List.append_nil] at hfuel ⊢
      obtain ⟨fuel, rfl⟩ := Nat.exists_eq_add_of_le (Nat.le_of_lt (by omega :
        (String.utf8EncodeChar c).length < fuel))
      rw [readStringBytes_plain hplain, ih (by omega), List.reverse_append, List.reverse_reverse,
        List.append_assoc]

/-- A string is read back up to its closing quote. -/
theorem readString_escapedBytes (s : String) (rest : Bytes) :
    readString (escapedBytes s.toList ++ byte '"' :: rest) = .ok (s, rest) := by
  have hfuel : (escapedBytes s.toList).length <
      (escapedBytes s.toList ++ byte '"' :: rest).length + 1 := by
    rw [List.length_append]
    omega
  rw [readString, readStringBytes_escapedBytes _ hfuel, List.reverse_nil, List.nil_append,
    ← encode_eq_flatMap]
  simp only [bind, Except.bind]
  rw [decode?_encode]

end DiagramScene.Json
