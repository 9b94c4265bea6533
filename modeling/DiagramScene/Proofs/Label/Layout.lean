import Mathlib
import DiagramScene.Proofs.Label.ClassBody
import DiagramScene.Proofs.Text.Layout

/-!
# Layout does not change the labels

Blank characters at the ends of a line make no difference to the scan, whether it stands outside of
a block or inside one (`readLine_trimChars`).  So the labels of a text depend on its trimmed lines
alone (`ofText_of_sameLines`).
-/

namespace DiagramScene.ClassLabels

/-- A blank at the start of a line changes nothing. -/
theorem readLine_cons (state : ClassLabels × Scan) {c : Char} (hc : Text.isBlank c = true)
    (line : List Char) : readLine state (c :: line) = readLine state line := by
  obtain ⟨labels, scan⟩ := state
  cases scan with
  | outside => simp only [readLine, readOutside, declaration?, Text.trimChars_cons hc]
  | inside name members =>
    have hne : c ≠ '\x7d' := by
      rintro rfl
      exact absurd hc (by decide)
    have hadd : ∀ raw, addMember members (c :: raw) = addMember members raw := fun raw => by
      simp only [addMember, Text.trimChars_cons hc]
    simp only [readLine, readInside, Text.splitAtChar?, if_neg hne, hadd]
    cases Text.splitAtChar? '\x7d' line with
    | none => rfl
    | some cut => simp only [Option.map_some, hadd]

/-- Blanks at both ends of a line change nothing. -/
theorem readLine_surrounded (state : ClassLabels × Scan) {before after : List Char}
    (hbefore : ∀ c ∈ before, Text.isBlank c = true) (hafter : ∀ c ∈ after, Text.isBlank c = true)
    (line : List Char) : readLine state (before ++ line ++ after) = readLine state line := by
  induction before with
  | cons c before ih =>
    rw [List.forall_mem_cons] at hbefore
    exact (readLine_cons state hbefore.1 _).trans (ih hbefore.2)
  | nil =>
    induction after using List.reverseRecOn with
    | nil => rw [List.append_nil, List.nil_append]
    | append_singleton after c ih =>
      rw [List.forall_mem_append] at hafter
      rw [← List.append_assoc, readLine_concat state (hafter.2 c (List.mem_singleton_self c)),
        ih hafter.1]

/-- A line is read like the trimmed line. -/
theorem readLine_trimChars (state : ClassLabels × Scan) (line : List Char) :
    readLine state (Text.trimChars line) = readLine state line := by
  obtain ⟨before, after, hbefore, hafter, hline⟩ := Text.exists_surrounded_trimChars line
  conv_rhs => rw [hline, readLine_surrounded state hbefore hafter]

/-- A text is scanned by its trimmed lines. -/
theorem scan_eq_foldl_trimChars (cs : List Char) :
    scan cs = ((Text.pieces cs).map Text.trimChars).foldl readLine ([], .outside) := by
  simp only [scan, Text.foldl_lines readLine_nil readLine_dropReturn, List.foldl_map,
    readLine_trimChars]

/-- Texts with the same lines have the same labels. -/
theorem ofText_of_sameLines {s t : String} (h : Text.SameLines s t) : ofText t = ofText s := by
  rw [ofText, ofText, scan_eq_foldl_trimChars, scan_eq_foldl_trimChars, h]

/-- Blank characters at the ends of lines do not change the labels and their order, whichever they
are; neither does a carriage return in front of every newline, nor anything else that leaves the
trimmed lines of the text the same. -/
theorem ofText_layout (text : String) :
    (∀ padding, ofText (Text.padded padding text) = ofText text) ∧
      ofText (Text.withReturns text) = ofText text ∧
      ∀ other, Text.SameLines text other → ofText other = ofText text :=
  ⟨fun padding => ofText_of_sameLines (Text.sameLines_padded padding text),
    ofText_of_sameLines (Text.sameLines_withReturns text), fun _ h => ofText_of_sameLines h⟩

/-- Two layouts of a text in which a block is opened and closed. -/
theorem ofText_layout_block :
    Text.SameLines "class A \x7b\n+x\n\x7d" "\tclass A \x7b \r\n  +x\r\r\n\x7d\x0c" ∧
      ofText "\tclass A \x7b \r\n  +x\r\r\n\x7d\x0c" = ofText "class A \x7b\n+x\n\x7d" := by
  have hsame : Text.SameLines "class A \x7b\n+x\n\x7d" "\tclass A \x7b \r\n  +x\r\r\n\x7d\x0c" := by
    decide
  exact ⟨hsame, (ofText_layout _).2.2 _ hsame⟩

end DiagramScene.ClassLabels
