import Mathlib
import DiagramScene.Proofs.Text.Utf8
import DiagramScene.Svg.Escape

/-!
# Slices and entities

Escaping goes through the bytes of a text and copies slices of it.  No byte of a character that is
not ASCII looks like a character with a meaning in markup, so the search only stops between
characters, and all slices begin and end there (`isSlice_of_mem_pieces`).  The slices and the
entities together are the text with each character escaped by itself (`escape_eq_flatMap`).
-/

namespace DiagramScene.Svg

open String (utf8Len utf8Len_append utf8Len_cons utf8Len_nil utf8Len_eq_zero)

/-! ### Searching the bytes -/

/-- A character without a meaning in markup is written as itself. -/
theorem escapedChar_of_notMem {c : Char} (h : c ∉ markupSigns) : escapedChar c = [c] := by
  unfold escapedChar
  split
  case h_6 => rfl
  all_goals exact absurd (by decide) h

/-- The characters with a meaning in markup are ASCII. -/
theorem toNat_lt_of_mem_markupSigns : ∀ c ∈ markupSigns, c.toNat < 0x80 := by
  simp [markupSigns]

/-- A character that is one byte is the character of that byte. -/
theorem ofUInt8_toUInt8 {c : Char} (h : c.toNat < 0x80) : Char.ofUInt8 c.toNat.toUInt8 = c :=
  Char.toNat_inj.mp (Text.Utf8.toNat_toUInt8_of_lt h)

/-- No byte of a character without a meaning in markup looks like one that has a meaning. -/
theorem ofUInt8_notMem_markupSigns {c : Char} (h : c ∉ markupSigns) :
    ∀ b ∈ String.utf8EncodeChar c, Char.ofUInt8 b ∉ markupSigns := by
  intro b hb
  rcases Nat.lt_or_ge c.toNat 0x80 with hascii | hlarge
  · rw [Text.Utf8.utf8EncodeChar_of_lt hascii, List.mem_singleton] at hb
    rwa [hb, ofUInt8_toUInt8 hascii]
  · intro hsign
    have hlow : b.toNat < 0x80 := toNat_lt_of_mem_markupSigns _ hsign
    exact absurd (Text.Utf8.le_of_mem_utf8EncodeChar hlarge b hb) (Nat.not_le_of_lt hlow)

/-- The search passes over bytes without a meaning in markup. -/
theorem piecesFrom_append {as : Bytes} (h : ∀ b ∈ as, Char.ofUInt8 b ∉ markupSigns)
    (start position : Nat) (bs : Bytes) :
    piecesFrom start position (as ++ bs) = piecesFrom start (position + as.length) bs := by
  induction as generalizing position with
  | nil => rfl
  | cons a as ih =>
    obtain ⟨ha, has⟩ := List.forall_mem_cons.mp h
    have hsign : markupSigns.contains (Char.ofUInt8 a) = false := by simpa using ha
    rw [List.cons_append, piecesFrom, hsign, List.length_cons, ← Nat.add_assoc, Nat.add_right_comm]
    exact ih has (position + 1)

/-- The search passes over the bytes of a character without a meaning in markup. -/
theorem piecesFrom_of_notMem {c : Char} (h : c ∉ markupSigns) (start position : Nat) (bs : Bytes) :
    piecesFrom start position (String.utf8EncodeChar c ++ bs) =
      piecesFrom start (position + c.utf8Size) bs := by
  rw [piecesFrom_append (ofUInt8_notMem_markupSigns h), String.length_utf8EncodeChar]

/-- At a character with a meaning in markup the slice before it ends. -/
theorem piecesFrom_of_mem {c : Char} (h : c ∈ markupSigns) (start position : Nat) (bs : Bytes) :
    piecesFrom start position (String.utf8EncodeChar c ++ bs) =
      sliceBetween start position ++
        .entity c :: piecesFrom (position + c.utf8Size) (position + c.utf8Size) bs := by
  have hascii := toNat_lt_of_mem_markupSigns c h
  have hbytes := Text.Utf8.utf8EncodeChar_of_lt hascii
  have hsize : c.utf8Size = 1 := by
    rw [← String.length_utf8EncodeChar, hbytes, List.length_singleton]
  have hsign : markupSigns.contains c = true := by simpa using h
  rw [hbytes, hsize, List.singleton_append, piecesFrom, ofUInt8_toUInt8 hascii, hsign]
  rfl

/-! ### Slices -/

/-- Two positions between characters of a text, the first one before the other. -/
structure IsSlice (text : String) (start stop : Nat) : Prop where
  lt : start < stop
  start_valid : String.Pos.Raw.IsValid text ⟨start⟩
  stop_valid : String.Pos.Raw.IsValid text ⟨stop⟩

/-- A position behind some of the characters of a text lies between characters. -/
theorem isValid_utf8Len (before rest : List Char) :
    String.Pos.Raw.IsValid (String.ofList (before ++ rest)) ⟨utf8Len before⟩ := by
  refine String.Pos.Raw.isValid_iff_exists_append.mpr ⟨_, _, String.ofList_append, ?_⟩
  exact String.Pos.Raw.ext (String.utf8ByteSize_ofList before).symm

/-- The characters are written as pieces of the text. -/
structure WrittenAs (text : String) (ps : List Piece) (cs : List Char) : Prop where
  chars : ps.flatMap (Piece.chars text) = cs
  slices : ∀ start stop, .slice start stop ∈ ps → IsSlice text start stop

namespace WrittenAs

variable {text : String} {ps qs : List Piece} {cs ds : List Char}

/-- Pieces behind others. -/
theorem append (h : WrittenAs text ps cs) (h' : WrittenAs text qs ds) :
    WrittenAs text (ps ++ qs) (cs ++ ds) where
  chars := by rw [List.flatMap_append, h.chars, h'.chars]
  slices start stop hmem := by
    rcases List.mem_append.mp hmem with hmem | hmem
    · exact h.slices start stop hmem
    · exact h'.slices start stop hmem

/-- The entity of a character before other pieces. -/
theorem entity (c : Char) (h : WrittenAs text ps cs) :
    WrittenAs text (.entity c :: ps) (escapedChar c ++ cs) where
  chars := by rw [List.flatMap_cons, h.chars, Piece.chars]
  slices start stop hmem := by
    rcases List.mem_cons.mp hmem with hhead | hmem
    · cases hhead
    · exact h.slices start stop hmem

end WrittenAs

/-- Characters are written as the slice from the position before them to the one behind them. -/
theorem writtenAs_sliceBetween (before cs rest : List Char) :
    WrittenAs (String.ofList (before ++ cs ++ rest))
      (sliceBetween (utf8Len before) (utf8Len before + utf8Len cs)) cs := by
  unfold sliceBetween
  split
  · rename_i hlt
    refine ⟨?_, fun start stop hmem => ?_⟩
    · rw [List.flatMap_singleton, Piece.chars, String.extract_of_valid, String.toList_ofList]
    · obtain ⟨rfl, rfl⟩ := Piece.slice.inj (List.mem_singleton.mp hmem)
      refine ⟨hlt, ?_, ?_⟩
      · rw [List.append_assoc]
        exact isValid_utf8Len before _
      · rw [← utf8Len_append]
        exact isValid_utf8Len _ rest
  · rename_i hle
    obtain rfl : cs = [] := utf8Len_eq_zero.mp (by omega)
    exact ⟨rfl, fun _ _ hmem => absurd hmem List.not_mem_nil⟩

/-- Where the characters `cs` have been passed over since the last piece, they and the rest of the
text are written as the pieces that follow. -/
theorem writtenAs_piecesFrom (before cs rest : List Char) :
    WrittenAs (String.ofList (before ++ cs ++ rest))
      (piecesFrom (utf8Len before) (utf8Len before + utf8Len cs)
        (rest.flatMap String.utf8EncodeChar))
      (cs ++ rest.flatMap escapedChar) := by
  induction rest generalizing before cs with
  | nil =>
    rw [List.flatMap_nil, List.flatMap_nil, piecesFrom, List.append_nil cs]
    exact writtenAs_sliceBetween before cs []
  | cons c rest ih =>
    rw [List.flatMap_cons, List.flatMap_cons]
    by_cases hc : c ∈ markupSigns
    · -- the characters passed over end in a slice, and the search starts anew behind the entity
      have hslice := writtenAs_sliceBetween before cs (c :: rest)
      have hrest := ih (before ++ cs ++ [c]) []
      rw [List.append_nil, List.append_assoc _ [c] rest, List.singleton_append, utf8Len_nil,
        Nat.add_zero, utf8Len_append, utf8Len_append, utf8Len_cons, utf8Len_nil, Nat.zero_add,
        List.nil_append] at hrest
      rw [piecesFrom_of_mem hc]
      exact hslice.append (hrest.entity c)
    · have hrest := ih before (cs ++ [c])
      rw [utf8Len_append, utf8Len_cons, utf8Len_nil, Nat.zero_add, ← Nat.add_assoc,
        ← List.append_assoc, List.append_assoc _ [c] rest, List.append_assoc cs [c],
        List.singleton_append] at hrest
      rw [piecesFrom_of_notMem hc, escapedChar_of_notMem hc]
      exact hrest

/-- A text is written as its pieces. -/
theorem writtenAs_pieces (text : String) :
    WrittenAs text (pieces text) (text.toList.flatMap escapedChar) := by
  have h := writtenAs_piecesFrom [] [] text.toList
  rwa [List.nil_append, List.nil_append, List.nil_append, String.ofList_toList,
    ← Text.Utf8.encode_eq_flatMap] at h

/-- All slices of a text that are written begin and end between characters. -/
theorem isSlice_of_mem_pieces {text : String} {start stop : Nat}
    (h : .slice start stop ∈ pieces text) : IsSlice text start stop :=
  (writtenAs_pieces text).slices start stop h

/-- Escaping a text is escaping each of its characters. -/
theorem escape_eq_flatMap (cs : List Char) : escape cs = cs.flatMap escapedChar := by
  have h := (writtenAs_pieces (String.ofList cs)).chars
  rwa [String.toList_ofList] at h

@[simp] theorem escape_nil : escape [] = [] := by
  rw [escape_eq_flatMap, List.flatMap_nil]

theorem escape_cons (c : Char) (cs : List Char) :
    escape (c :: cs) = escapedChar c ++ escape cs := by
  rw [escape_eq_flatMap, List.flatMap_cons, escape_eq_flatMap]

end DiagramScene.Svg
