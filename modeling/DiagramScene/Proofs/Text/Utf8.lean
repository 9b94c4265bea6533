import Mathlib
import DiagramScene.Text.Utf8

/-!
# Texts as bytes

`Utf8.encode` writes a text character by character (`encode_eq_flatMap`), and `Utf8.decode?` gets it
back from its bytes (`decode?_encode`).  An ASCII character is one byte, its code; the bytes of any
other character are no ASCII characters, so a reader that looks for ASCII characters among the bytes
does not find one inside of another character.
-/

namespace DiagramScene.Text.Utf8

/-! ### Arrays of bytes -/

/-- The loop that lists the bytes of an array, with those behind a place still to come. -/
theorem toList_loop (bytes : ByteArray) (i : Nat) (r : List UInt8) :
    ByteArray.toList.loop bytes i r = r.reverse ++ bytes.data.toList.drop i := by
  induction h : bytes.size - i generalizing i r with
  | zero =>
    have hle : bytes.data.toList.length ≤ i := by
      simpa using Nat.sub_eq_zero_iff_le.mp h
    unfold ByteArray.toList.loop
    rw [if_neg (by simpa using hle), List.drop_eq_nil_of_le hle, List.append_nil]
  | succ n ih =>
    have hlt : i < bytes.size := by omega
    have hlt' : i < bytes.data.toList.length := by simpa using hlt
    have hget : bytes.get! i = bytes.data.toList[i] := by
      obtain ⟨data⟩ := bytes
      simpa [ByteArray.get!] using getElem!_pos data i hlt
    unfold ByteArray.toList.loop
    rw [if_pos hlt, ih (i + 1) _ (by omega), hget, List.reverse_cons, List.append_assoc,
      List.singleton_append, List.drop_eq_getElem_cons hlt']

/-- The bytes of an array. -/
theorem toList_eq (bytes : ByteArray) : bytes.toList = bytes.data.toList :=
  toList_loop bytes 0 []

/-- Bytes that are put into an array and listed again. -/
theorem toList_toByteArray (bytes : Bytes) : bytes.toByteArray.toList = bytes := by
  rw [toList_eq, List.toList_data_toByteArray]

/-- An array whose bytes are listed and put into an array again. -/
theorem toByteArray_toList (bytes : ByteArray) : bytes.toList.toByteArray = bytes := by
  rw [toList_eq]
  exact ByteArray.ext (Array.ext' List.toList_data_toByteArray)

/-! ### Texts -/

/-- The bytes of a text are those of its characters. -/
theorem encode_eq_flatMap (s : String) :
    encode s = s.toList.flatMap String.utf8EncodeChar := by
  conv_lhs => rw [← String.ofList_toList (s := s)]
  rw [encode, String.toUTF8_eq_toByteArray, String.toByteArray_ofList]
  exact toList_toByteArray _

/-- The bytes of characters. -/
theorem encode_ofList (cs : List Char) :
    encode (String.ofList cs) = cs.flatMap String.utf8EncodeChar := by
  rw [encode_eq_flatMap, String.toList_ofList]

/-- The bytes of one text behind another. -/
theorem encode_append (s t : String) : encode (s ++ t) = encode s ++ encode t := by
  rw [encode_eq_flatMap, encode_eq_flatMap, encode_eq_flatMap, String.toList_append,
    List.flatMap_append]

/-- A text is read back from its bytes. -/
theorem decode?_encode (s : String) : decode? (encode s) = some s := by
  rw [decode?, encode, toByteArray_toList, String.toUTF8_eq_toByteArray, String.fromUTF8?,
    dif_pos s.isValidUTF8]
  rfl

/-! ### Characters -/

/-- The byte of an ASCII character is its code. -/
theorem toNat_toUInt8_of_lt {c : Char} (h : c.toNat < 0x80) : c.toNat.toUInt8.toNat = c.toNat := by
  rw [Nat.toUInt8, UInt8.toNat_ofNat']
  omega

/-- An ASCII character is one byte. -/
theorem utf8EncodeChar_of_lt {c : Char} (h : c.toNat < 0x80) :
    String.utf8EncodeChar c = [c.toNat.toUInt8] := by
  unfold String.utf8EncodeChar
  exact if_pos (Nat.le_of_lt_succ h)

/-- The bytes of an ASCII text are the codes of its characters. -/
theorem encode_of_lt {s : String} (h : ∀ c ∈ s.toList, c.toNat < 0x80) :
    encode s = s.toList.map fun c => c.toNat.toUInt8 := by
  rw [encode_eq_flatMap]
  generalize s.toList = cs at h
  induction cs with
  | nil => rfl
  | cons c cs ih =>
    obtain ⟨hc, hcs⟩ := List.forall_mem_cons.mp h
    rw [List.flatMap_cons, utf8EncodeChar_of_lt hc, ih hcs, List.map_cons, List.singleton_append]

/-- No byte of another character is an ASCII character. -/
theorem le_of_mem_utf8EncodeChar {c : Char} (h : 0x80 ≤ c.toNat) :
    ∀ b ∈ String.utf8EncodeChar c, 0x80 ≤ b.toNat := by
  unfold String.utf8EncodeChar
  dsimp only
  rw [if_neg (by exact Nat.not_le_of_lt h)]
  split
  · simp
    omega
  · split
    · simp
      omega
    · simp
      omega

/-- A character has bytes. -/
theorem utf8EncodeChar_ne_nil (c : Char) : String.utf8EncodeChar c ≠ [] := by
  unfold String.utf8EncodeChar
  dsimp only
  split_ifs <;> exact List.cons_ne_nil _ _

/-- Bytes of ASCII characters alone are those of an ASCII text. -/
theorem lt_of_forall_mem_encode {cs : List Char}
    (h : ∀ b ∈ encode (String.ofList cs), b.toNat < 0x80) : ∀ c ∈ cs, c.toNat < 0x80 := by
  intro c hc
  by_contra hlarge
  obtain ⟨b, hb⟩ := List.exists_mem_of_ne_nil _ (utf8EncodeChar_ne_nil c)
  have hmem : b ∈ encode (String.ofList cs) := by
    rw [encode_ofList]
    exact List.mem_flatMap.mpr ⟨c, hc, hb⟩
  exact absurd (h b hmem) (not_lt.mpr (le_of_mem_utf8EncodeChar (not_lt.mp hlarge) b hb))

/-- The bytes of an ASCII text, read as characters, are the text. -/
theorem map_ofUInt8_encode {cs : List Char} (h : ∀ c ∈ cs, c.toNat < 0x80) :
    (encode (String.ofList cs)).map Char.ofUInt8 = cs := by
  have hcode : ∀ c ∈ cs, Char.ofUInt8 c.toNat.toUInt8 = c := fun c hc =>
    Char.toNat_inj.mp (toNat_toUInt8_of_lt (h c hc))
  rw [encode_of_lt (by rwa [String.toList_ofList]), String.toList_ofList, List.map_map]
  exact (List.map_congr_left hcode).trans (List.map_id cs)

end DiagramScene.Text.Utf8
