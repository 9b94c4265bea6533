import Mathlib
import DiagramScene.Text.Lines
import DiagramScene.Text.Split

/-!
# Texts made of lines

Lines without a newline, put together with newlines, are the pieces of the text that they make
(`pieces_intercalate`), and every text is made of its pieces (`intercalate_pieces`).  Reading the
lines of a text one by one is reading its pieces, for every reader that passes over an empty line
and takes no notice of a carriage return at the end of a line (`foldl_lines`).

The two readings of the lines of a text give the same lines if the text ends in neither a newline
nor a carriage return (`lines_eq_textLines`).  Its lines as they are drawn, put together with
newlines, are the text without the carriage returns at the ends of lines (`intercalate_textLines`).
-/

namespace DiagramScene.Text

/-! ### Cutting -/

/-- A character that does not stand in a text does not cut it. -/
theorem splitAtChar?_eq_none {c : Char} {cs : List Char} (h : c ∉ cs) :
    splitAtChar? c cs = none := by
  induction cs with
  | nil => rfl
  | cons d ds ih =>
    rw [List.mem_cons, not_or] at h
    simp [splitAtChar?, Ne.symm h.1, ih h.2]

/-- A text is cut at the first place of a character. -/
theorem splitAtChar?_append {c : Char} {cs : List Char} (h : c ∉ cs) (rest : List Char) :
    splitAtChar? c (cs ++ c :: rest) = some (cs, rest) := by
  induction cs with
  | nil => simp [splitAtChar?]
  | cons d ds ih =>
    rw [List.mem_cons, not_or] at h
    simp [splitAtChar?, Ne.symm h.1, ih h.2]

/-- A text is cut at a character behind the part that does not have it. -/
theorem splitAtChar?_eq_some_iff {c : Char} {cs before after : List Char} :
    splitAtChar? c cs = some (before, after) ↔ cs = before ++ c :: after ∧ c ∉ before := by
  refine ⟨fun h => ?_, fun ⟨heq, hc⟩ => heq ▸ splitAtChar?_append hc after⟩
  induction cs generalizing before with
  | nil => exact nomatch h
  | cons d ds ih =>
    rw [splitAtChar?] at h
    split at h
    · rename_i hd
      obtain ⟨rfl, rfl⟩ := Prod.mk.inj (Option.some.inj h)
      exact ⟨by rw [hd]; rfl, List.not_mem_nil⟩
    · rename_i hd
      obtain ⟨⟨front, rest⟩, hcut, heq⟩ := Option.map_eq_some_iff.mp h
      obtain ⟨rfl, rfl⟩ := Prod.mk.inj heq
      obtain ⟨rfl, hnot⟩ := ih hcut
      exact ⟨rfl, by simp [Ne.symm hd, hnot]⟩

/-- A text is not cut at a character exactly when it does not have it. -/
theorem splitAtChar?_eq_none_iff {c : Char} {cs : List Char} :
    splitAtChar? c cs = none ↔ c ∉ cs := by
  refine ⟨fun h hc => ?_, splitAtChar?_eq_none⟩
  obtain ⟨before, after, rfl, hnot⟩ := List.eq_append_cons_of_mem hc
  rw [splitAtChar?_append hnot] at h
  exact nomatch h

/-- Another character at the end of a text does not change where the text is cut. -/
theorem splitAtChar?_concat {c d : Char} (h : d ≠ c) (cs : List Char) :
    splitAtChar? c (cs ++ [d]) =
      (splitAtChar? c cs).map fun (before, after) => (before, after ++ [d]) := by
  induction cs with
  | nil => simp [splitAtChar?, h]
  | cons b bs ih =>
    by_cases hb : b = c
    · simp [splitAtChar?, hb]
    · simp only [List.cons_append, splitAtChar?, hb, if_false, ih, Option.map_map]
      rfl

/-- Joining is what the standard library calls intercalation. -/
theorem join_eq_intercalate (sep : List Char) (parts : List (List Char)) :
    join sep parts = sep.intercalate parts := by
  induction parts with
  | nil => rfl
  | cons p ps ih =>
    cases ps with
    | nil => simp [join]
    | cons q qs => rw [join, ih, List.intercalate_cons_cons, List.append_assoc]

/-! ### Lines -/

/-- Any other character than a newline belongs to the first piece. -/
theorem pieces_cons_of_ne {c : Char} (hc : c ≠ '\n') {cs p : List Char} {ps : List (List Char)}
    (hps : pieces cs = p :: ps) : pieces (c :: cs) = (c :: p) :: ps := by
  simp [pieces, hc, hps]

/-- A text without a newline is its own only piece. -/
theorem pieces_of_notMem {p : List Char} (h : '\n' ∉ p) : pieces p = [p] := by
  induction p with
  | nil => rfl
  | cons c cs ih =>
    rw [List.mem_cons, not_or] at h
    simp [pieces, Ne.symm h.1, ih h.2]

/-- A newline ends the first piece. -/
theorem pieces_append_newline {p : List Char} (h : '\n' ∉ p) (cs : List Char) :
    pieces (p ++ '\n' :: cs) = p :: pieces cs := by
  induction p with
  | nil => exact pieces_newline cs
  | cons c p ih =>
    rw [List.mem_cons, not_or] at h
    simp [pieces, Ne.symm h.1, ih h.2]

/-- A newline between two texts ends the last piece of the first one. -/
theorem pieces_append (cs ds : List Char) : pieces (cs ++ '\n' :: ds) = pieces cs ++ pieces ds := by
  induction cs with
  | nil => exact pieces_newline ds
  | cons c cs ih =>
    obtain ⟨p, ps, hps⟩ := List.exists_cons_of_ne_nil (pieces_ne_nil cs)
    by_cases hc : c = '\n'
    · rw [hc, List.cons_append, pieces_newline, pieces_newline, ih, List.cons_append]
    · simp [pieces, hc, ih, hps]

/-- A text has one piece more than it has newlines. -/
theorem length_pieces (cs : List Char) : (pieces cs).length = cs.count '\n' + 1 := by
  induction cs with
  | nil => rfl
  | cons c cs ih =>
    by_cases hc : c = '\n'
    · rw [hc, pieces_newline, List.length_cons, ih, List.count_cons_self]
    · obtain ⟨p, ps, hps⟩ := List.exists_cons_of_ne_nil (pieces_ne_nil cs)
      rw [hps] at ih
      rw [pieces_cons_of_ne hc hps, List.length_cons, ← List.length_cons (a := p), ih,
        List.count_cons_of_ne hc]

/-- Texts that are put together behind another one may be put together with it. -/
theorem intercalate_cons_intercalate (sep l : List Char) (ls ls' : List (List Char)) :
    sep.intercalate (sep.intercalate (l :: ls) :: ls') = sep.intercalate (l :: (ls ++ ls')) := by
  induction ls generalizing l with
  | nil => rw [List.intercalate_singleton, List.nil_append]
  | cons l' ls ih =>
    rw [List.cons_append, List.intercalate_cons_cons, List.intercalate_cons_cons, ← ih l']
    cases ls' with
    | nil => simp
    | cons l'' ls' => simp [List.intercalate_cons_cons]

/-- Lines put together with newlines are the pieces of what they make. -/
theorem pieces_intercalate {ls : List (List Char)} (hne : ls ≠ []) (h : ∀ l ∈ ls, '\n' ∉ l) :
    pieces (['\n'].intercalate ls) = ls := by
  induction ls with
  | nil => exact absurd rfl hne
  | cons p ps ih =>
    have hp : '\n' ∉ p := h p (List.mem_cons_self ..)
    cases ps with
    | nil => simpa using pieces_of_notMem hp
    | cons q qs =>
      rw [List.intercalate_cons_cons, List.append_assoc, List.singleton_append,
        pieces_append_newline hp]
      rw [ih (by simp) fun l hl => h l (List.mem_cons_of_mem _ hl)]

/-- The pieces of a text, put together with newlines, are the text. -/
theorem intercalate_pieces (cs : List Char) : ['\n'].intercalate (pieces cs) = cs := by
  induction cs with
  | nil => rfl
  | cons c cs ih =>
    obtain ⟨p, ps, hps⟩ := List.exists_cons_of_ne_nil (pieces_ne_nil cs)
    rw [hps] at ih
    by_cases hc : c = '\n'
    · rw [hc, pieces_newline, hps, List.intercalate_cons_cons, ih]
      rfl
    · rw [pieces_cons_of_ne hc hps]
      cases ps with
      | nil => simpa using ih
      | cons q qs =>
        rw [List.intercalate_cons_cons] at ih ⊢
        simpa using ih

/-- No piece has a newline in it. -/
theorem newline_notMem_of_mem_pieces {cs p : List Char} (h : p ∈ pieces cs) : '\n' ∉ p := by
  induction cs generalizing p with
  | nil =>
    rw [List.mem_singleton.mp h]
    exact List.not_mem_nil
  | cons c cs ih =>
    obtain ⟨q, qs, hqs⟩ := List.exists_cons_of_ne_nil (pieces_ne_nil cs)
    by_cases hc : c = '\n'
    · rw [hc, pieces_newline] at h
      rcases List.mem_cons.mp h with rfl | h
      · exact List.not_mem_nil
      · exact ih h
    · rw [pieces_cons_of_ne hc hqs] at h
      rw [hqs] at ih
      rcases List.mem_cons.mp h with rfl | h
      · simp [Ne.symm hc, ih (List.mem_cons_self ..)]
      · exact ih (List.mem_cons_of_mem q h)

/-- A line without its carriage return is the line, or the line is that and a carriage return. -/
theorem dropReturn_cases (l : List Char) : dropReturn l = l ∨ l = dropReturn l ++ ['\r'] := by
  unfold dropReturn
  split
  · rename_i h
    exact .inr (List.dropLast_append_getLast? '\r' h).symm
  · exact .inl rfl

/-- No line has a newline in it. -/
theorem newline_notMem_of_mem_lines {cs l : List Char} (h : l ∈ lines cs) : '\n' ∉ l := by
  have hpieces : ∀ p ∈ pieces cs, '\n' ∉ p := fun p hp => newline_notMem_of_mem_pieces hp
  unfold lines at h
  generalize pieces cs = ps at h hpieces
  induction ps with
  | nil => exact absurd h List.not_mem_nil
  | cons p ps ih =>
    obtain ⟨hp, hps⟩ := List.forall_mem_cons.mp hpieces
    cases ps with
    | nil =>
      simp only [lines.close] at h
      split at h
      · exact absurd h List.not_mem_nil
      · exact List.mem_singleton.mp h ▸ hp
    | cons q qs =>
      rcases List.mem_cons.mp h with rfl | h
      · rcases dropReturn_cases p with heq | heq
        · rwa [heq]
        · rw [heq] at hp
          exact fun hmem => hp (List.mem_append_left _ hmem)
      · exact ih h hps

section Reading

variable {σ : Type} {read : σ → List Char → σ} (hempty : ∀ s, read s [] = s)
  (hreturn : ∀ s l, read s (dropReturn l) = read s l)

include hempty hreturn

/-- Reading the lines that the pieces of a text stand for is reading the pieces, if an empty line
and a carriage return at the end of a line make no difference to the reader. -/
theorem foldl_lines_close (ps : List (List Char)) (s : σ) :
    (lines.close ps).foldl read s = ps.foldl read s := by
  induction ps generalizing s with
  | nil => rfl
  | cons p ps ih =>
    cases ps with
    | nil =>
      -- the last piece is no line if it is empty
      cases p with
      | nil => simp [lines.close, hempty]
      | cons c cs => simp [lines.close]
    | cons q qs =>
      simp only [lines.close, List.foldl_cons, hreturn] at ih ⊢
      exact ih _

/-- Reading the lines of a text is reading its pieces. -/
theorem foldl_lines (cs : List Char) (s : σ) : (lines cs).foldl read s = (pieces cs).foldl read s :=
  foldl_lines_close hempty hreturn (pieces cs) s

/-- Reading the lines of a text that was put together of lines is reading those lines. -/
theorem foldl_lines_intercalate {ls : List (List Char)} (h : ∀ l ∈ ls, '\n' ∉ l) (s : σ) :
    (lines (['\n'].intercalate ls)).foldl read s = ls.foldl read s := by
  by_cases hne : ls = []
  · subst hne
    rfl
  · rw [foldl_lines hempty hreturn, pieces_intercalate hne h]

end Reading

/-! ### The two readings -/

/-- Every piece before others was ended by a newline. -/
theorem close_append (ps : List (List Char)) {qs : List (List Char)} (hqs : qs ≠ []) :
    lines.close (ps ++ qs) = ps.map dropReturn ++ lines.close qs := by
  induction ps with
  | nil => rfl
  | cons p ps ih =>
    have hne : ps ++ qs ≠ [] := List.append_ne_nil_of_right_ne_nil ps hqs
    rw [List.cons_append, lines.close.eq_3 _ _ hne, ih, List.map_cons, List.cons_append]

/-- A newline ends the lines of the text before it. -/
theorem lines_append_newline (cs ds : List Char) :
    lines (cs ++ '\n' :: ds) = textLines cs ++ lines ds := by
  rw [lines, pieces_append, close_append _ (pieces_ne_nil ds), textLines, lines]

/-- A newline stands between the lines of the text before it and those of the text behind it. -/
theorem textLines_append_newline (cs ds : List Char) :
    textLines (cs ++ '\n' :: ds) = textLines cs ++ textLines ds := by
  rw [textLines, pieces_append, List.map_append, textLines, textLines]

/-- Every text has a line. -/
theorem textLines_ne_nil (cs : List Char) : textLines cs ≠ [] := by
  rw [textLines, ne_eq, List.map_eq_nil_iff]
  exact pieces_ne_nil cs

/-- A text has one line more than it has newlines. -/
theorem length_textLines (cs : List Char) : (textLines cs).length = cs.count '\n' + 1 := by
  rw [textLines, List.length_map, length_pieces]

/-- A text with a newline has a last one. -/
theorem exists_last_newline {cs : List Char} (h : '\n' ∈ cs) :
    ∃ before last, cs = before ++ '\n' :: last ∧ '\n' ∉ last := by
  obtain ⟨last, before, hcs, hlast⟩ := List.eq_append_cons_of_mem (List.mem_reverse.mpr h)
  refine ⟨before.reverse, last.reverse, ?_, by simpa using hlast⟩
  rw [← List.reverse_reverse cs, hcs]
  simp

/-- A text that ends in neither a newline nor a carriage return has the same lines in both
readings. -/
theorem lines_eq_textLines {cs : List Char} (hne : cs ≠ []) (hnewline : cs.getLast? ≠ some '\n')
    (hreturn : cs.getLast? ≠ some '\r') : lines cs = textLines cs := by
  -- a text on one line first
  have hline : ∀ l : List Char, l ≠ [] → '\n' ∉ l → l.getLast? ≠ some '\r' →
      lines l = textLines l := by
    intro l hne hl hreturn
    rw [lines, textLines, pieces_of_notMem hl, List.map_singleton, dropReturn, if_neg hreturn,
      lines.close, List.isEmpty_eq_false_iff.mpr hne, if_neg Bool.false_ne_true]
  by_cases hmem : '\n' ∈ cs
  · obtain ⟨before, last, rfl, hlast⟩ := exists_last_newline hmem
    rw [List.getLast?_append_of_ne_nil before (List.cons_ne_nil _ _)] at hnewline hreturn
    cases last with
    | nil => exact absurd rfl hnewline
    | cons c last =>
      rw [List.getLast?_cons_cons] at hreturn
      rw [lines_append_newline, textLines_append_newline,
        hline (c :: last) (List.cons_ne_nil c last) hlast hreturn]
  · exact hline cs hne hmem hreturn

/-! ### Lines put together again -/

/-- A text without the carriage returns before its newlines and the one at its very end. -/
def withoutReturns : List Char → List Char
  | [] => []
  | c :: cs =>
    if c = '\r' ∧ (cs = [] ∨ cs.head? = some '\n') then withoutReturns cs
    else c :: withoutReturns cs

/-- The first line of a text is empty where the text ends or a newline begins it. -/
theorem eq_nil_iff_of_pieces {cs p : List Char} {ps : List (List Char)} (h : pieces cs = p :: ps) :
    p = [] ↔ cs = [] ∨ cs.head? = some '\n' := by
  cases cs with
  | nil =>
    obtain ⟨rfl, _⟩ := List.cons.inj h
    simp
  | cons c cs =>
    by_cases hc : c = '\n'
    · rw [hc, pieces_newline] at h
      obtain ⟨rfl, _⟩ := List.cons.inj h
      simp [hc]
    · obtain ⟨q, qs, hqs⟩ := List.exists_cons_of_ne_nil (pieces_ne_nil cs)
      rw [pieces_cons_of_ne hc hqs] at h
      obtain ⟨rfl, _⟩ := List.cons.inj h
      simp [hc]

/-- Only a character at the end of a line can be the carriage return that is dropped. -/
theorem dropReturn_cons (c : Char) (p : List Char) :
    dropReturn (c :: p) = if c = '\r' ∧ p = [] then [] else c :: dropReturn p := by
  cases p with
  | nil => simp [dropReturn]
  | cons d p =>
    rw [if_neg fun h => List.cons_ne_nil d p h.2, dropReturn, dropReturn, List.getLast?_cons_cons,
      List.dropLast_cons_cons]
    split <;> rfl

/-- Lines of which the first one has another character in front make that character and what the
lines make. -/
theorem intercalate_cons_head (sep : List Char) (c : Char) (l : List Char) (ls : List (List Char)) :
    sep.intercalate ((c :: l) :: ls) = c :: sep.intercalate (l :: ls) := by
  cases ls with
  | nil => simp
  | cons l' ls => simp [List.intercalate_cons_cons]

/-- The lines of a text make the text, but for the carriage returns at their ends. -/
theorem intercalate_textLines (cs : List Char) :
    ['\n'].intercalate (textLines cs) = withoutReturns cs := by
  induction cs with
  | nil => rfl
  | cons c cs ih =>
    obtain ⟨p, ps, hps⟩ := List.exists_cons_of_ne_nil (pieces_ne_nil cs)
    rw [textLines, hps, List.map_cons] at ih
    have hempty := eq_nil_iff_of_pieces hps
    by_cases hc : c = '\n'
    · rw [withoutReturns, if_neg (by simp [hc]), hc, textLines, pieces_newline, hps, List.map_cons,
        List.map_cons, List.intercalate_cons_cons, ih]
      rfl
    · rw [textLines, pieces_cons_of_ne hc hps, List.map_cons, dropReturn_cons, withoutReturns]
      by_cases hreturn : c = '\r' ∧ p = []
      · -- the carriage return is all of its line
        rw [if_pos hreturn, if_pos ⟨hreturn.1, hempty.mp hreturn.2⟩, ← ih, hreturn.2]
        rfl
      · rw [if_neg hreturn, if_neg fun h => hreturn ⟨h.1, hempty.mpr h.2⟩, ← ih]
        exact intercalate_cons_head _ _ _ _

end DiagramScene.Text
