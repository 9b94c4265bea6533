import Mathlib
import DiagramScene.Proofs.Text.Lines
import DiagramScene.Proofs.Text.Trim

/-!
# Layout of a text

Two texts have the same lines when these differ only in the blank characters at their ends
(`SameLines`).  Blank characters that are put at the ends of lines (`padded`) leave the lines of a
text the same, and so does a carriage return in front of every newline (`withReturns`).
-/

namespace DiagramScene.Text

/-- The texts have the same lines but for blank characters at the ends of lines. -/
def SameLines (s t : String) : Prop :=
  (pieces s.toList).map trimChars = (pieces t.toList).map trimChars

instance (s t : String) : Decidable (SameLines s t) :=
  inferInstanceAs (Decidable (_ = _))

/-! ### Padding -/

/-- Blank characters for both ends of a line. -/
structure Padding where
  before : List Char
  after : List Char
  blank : ∀ c ∈ before ++ after, isBlank c = true
  /-- Padding does not end the line. -/
  line : '\n' ∉ before ++ after

namespace Padding

/-- A line with blank characters at both ends. -/
def around (padding : Padding) (line : List Char) : List Char :=
  padding.before ++ line ++ padding.after

/-- A padded line is trimmed like the line. -/
theorem trimChars_around (padding : Padding) (line : List Char) :
    trimChars (padding.around line) = trimChars line := by
  obtain ⟨hbefore, hafter⟩ := List.forall_mem_append.mp padding.blank
  exact trimChars_surrounded hbefore hafter line

/-- A padded line is still a line. -/
theorem newline_notMem_around (padding : Padding) {line : List Char} (h : '\n' ∉ line) :
    '\n' ∉ padding.around line := by
  have hline := padding.line
  simp only [List.mem_append, not_or] at hline
  simp [around, hline.1, hline.2, h]

end Padding

/-- The text with blank characters at the ends of its lines, a padding for each line. -/
def padded (padding : Nat → Padding) (text : String) : String :=
  String.ofList (['\n'].intercalate
    ((pieces text.toList).mapIdx fun place line => (padding place).around line))

/-- Padding leaves the lines of a text the same. -/
theorem sameLines_padded (padding : Nat → Padding) (text : String) :
    SameLines text (padded padding text) := by
  have hlines : ∀ l ∈ (pieces text.toList).mapIdx fun place line => (padding place).around line,
      '\n' ∉ l := by
    intro l hl
    obtain ⟨place, hplace, rfl⟩ := List.mem_mapIdx.mp hl
    exact (padding place).newline_notMem_around
      (newline_notMem_of_mem_pieces (List.getElem_mem hplace))
  have hne : ((pieces text.toList).mapIdx fun place line => (padding place).around line) ≠ [] := by
    simpa using pieces_ne_nil text.toList
  rw [SameLines, padded, String.toList_ofList, pieces_intercalate hne hlines]
  refine List.ext_getElem (by simp) fun place _ _ => ?_
  simp only [List.getElem_map, List.getElem_mapIdx, Padding.trimChars_around]

/-! ### Carriage returns -/

/-- The characters with a carriage return in front of every newline. -/
def returned (cs : List Char) : List Char :=
  cs.flatMap fun c => if c = '\n' then ['\r', '\n'] else [c]

/-- The text with a carriage return in front of every newline. -/
def withReturns (text : String) : String :=
  String.ofList (returned text.toList)

/-- A part of a line stays as it is. -/
theorem returned_of_notMem {cs : List Char} (h : '\n' ∉ cs) : returned cs = cs := by
  induction cs with
  | nil => rfl
  | cons c cs ih =>
    rw [List.mem_cons, not_or] at h
    rw [returned] at ih ⊢
    rw [List.flatMap_cons, if_neg (Ne.symm h.1), ih h.2, List.singleton_append]

/-- The first line gets a carriage return at its end. -/
theorem returned_append_newline {l : List Char} (h : '\n' ∉ l) (rest : List Char) :
    returned (l ++ '\n' :: rest) = (l ++ ['\r']) ++ '\n' :: returned rest := by
  have hl := returned_of_notMem h
  rw [returned] at hl ⊢
  rw [List.flatMap_append, hl, List.flatMap_cons, if_pos rfl, List.append_assoc]
  rfl

/-- Lines that are put together have the same trimmed lines with carriage returns. -/
theorem map_trimChars_pieces_returned {ls : List (List Char)} (hne : ls ≠ [])
    (h : ∀ l ∈ ls, '\n' ∉ l) :
    (pieces (returned (['\n'].intercalate ls))).map trimChars = ls.map trimChars := by
  induction ls with
  | nil => exact absurd rfl hne
  | cons l ls ih =>
    rw [List.forall_mem_cons] at h
    cases ls with
    | nil => rw [List.intercalate_singleton, returned_of_notMem h.1, pieces_of_notMem h.1]
    | cons l' ls =>
      have hreturn : '\n' ∉ l ++ ['\r'] := by simp [h.1]
      rw [List.intercalate_cons_cons, List.append_assoc, List.singleton_append,
        returned_append_newline h.1, pieces_append_newline hreturn, List.map_cons,
        ih (List.cons_ne_nil l' ls) h.2, trimChars_concat (by decide)]
      rfl

/-- A carriage return in front of every newline leaves the lines of a text the same. -/
theorem sameLines_withReturns (text : String) : SameLines text (withReturns text) := by
  have hpieces := map_trimChars_pieces_returned (pieces_ne_nil text.toList)
    fun _ hl => newline_notMem_of_mem_pieces hl
  rw [intercalate_pieces] at hpieces
  rw [SameLines, withReturns, String.toList_ofList, hpieces]

end DiagramScene.Text
