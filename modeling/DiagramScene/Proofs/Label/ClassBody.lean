import Mathlib
import DiagramScene.Label.ClassBody
import DiagramScene.Proofs.Keyed
import DiagramScene.Proofs.Text.Lines
import DiagramScene.Proofs.Text.Trim

/-!
# Rendered declarations are read back

A `Declaration` is a class with its members, written as a block; a `Filler` is a line that begins no
declaration.  `render` writes declarations and fillers in any number and order.

The scan stands outside of a block before and after each of these parts.  Between, the opening line
of a declaration takes it into the block, where every line but the closing one is a member, whatever
it looks like.  So the scan finds the declarations of the text and nothing else (`ofText_render`).
-/

namespace DiagramScene.ClassLabels

/-- A class with its members, in a form that can be written as a block. -/
structure Declaration where
  name : String
  members : List String
  name_ne : name ≠ ""
  name_trimmed : Text.trimmed name = name
  /-- The name stands on one line. -/
  name_line : '\n' ∉ name.toList
  /-- The name does not open the block. -/
  name_open : '\x7b' ∉ name.toList
  member_ne : ∀ m ∈ members, m ≠ ""
  member_trimmed : ∀ m ∈ members, Text.trimmed m = m
  /-- A member stands on one line. -/
  member_line : ∀ m ∈ members, '\n' ∉ m.toList
  /-- A member does not close the block. -/
  member_close : ∀ m ∈ members, '\x7d' ∉ m.toList

/-- A line that begins no declaration. -/
structure Filler where
  line : String
  newline_notMem : '\n' ∉ line.toList
  not_prefix : ¬ "class ".toList <+: (Text.trimmed line).toList

/-- A part of a diagram text. -/
inductive Part where
  | filler (f : Filler)
  | declaration (d : Declaration)

/-- The lines of a declaration: the opening line, the members, and the closing line. -/
def Declaration.lines (d : Declaration) : List String :=
  ("class " ++ d.name ++ " \x7b") :: (d.members ++ ["\x7d"])

/-- The label of a declaration: the name and the members on lines of their own. -/
def Declaration.label (d : Declaration) : String := "\n".intercalate (d.name :: d.members)

/-- The lines of a part. -/
def Part.lines : Part → List String
  | filler f => [f.line]
  | declaration d => d.lines

/-- What a part adds to the labels. -/
def Part.entries : Part → List (String × String)
  | filler _ => []
  | declaration d => [(d.name, d.label)]

/-- The diagram text of parts, line by line. -/
def render (parts : List Part) : String := "\n".intercalate (parts.flatMap Part.lines)

/-! ### Reading one line -/

/-- An empty line changes nothing. -/
theorem readLine_nil (state : ClassLabels × Scan) : readLine state [] = state := by
  obtain ⟨labels, scan⟩ := state
  cases scan with
  | outside => rfl
  | inside name members => rfl

/-- A member with a blank at its end is the member. -/
theorem addMember_concat (members : List (List Char)) {c : Char} (hc : Text.isBlank c = true)
    (line : List Char) : addMember members (line ++ [c]) = addMember members line := by
  simp only [addMember, Text.trimChars_concat hc]

/-- A blank at the end of a line changes nothing. -/
theorem readLine_concat (state : ClassLabels × Scan) {c : Char} (hc : Text.isBlank c = true)
    (line : List Char) : readLine state (line ++ [c]) = readLine state line := by
  obtain ⟨labels, scan⟩ := state
  cases scan with
  | outside =>
    simp only [readLine, readOutside, declaration?, Text.trimChars_concat hc]
  | inside name members =>
    have hne : c ≠ '\x7d' := by
      rintro rfl
      exact absurd hc (by decide)
    simp only [readLine, readInside, Text.splitAtChar?_concat hne, addMember_concat _ hc]
    cases Text.splitAtChar? '\x7d' line with
    | none => rfl
    | some cut => rfl

/-- A carriage return at the end of a line changes nothing. -/
theorem readLine_dropReturn (state : ClassLabels × Scan) (line : List Char) :
    readLine state (Text.dropReturn line) = readLine state line := by
  rcases Text.dropReturn_cases line with h | h
  · rw [h]
  · conv_rhs => rw [h, readLine_concat state (by decide)]

/-- A line that begins no declaration is passed over. -/
theorem readLine_filler (labels : ClassLabels) (f : Filler) :
    readLine (labels, .outside) f.line.toList = (labels, .outside) := by
  have hnone : Text.after? keyword (Text.trimChars f.line.toList) = none := by
    cases h : Text.after? keyword (Text.trimChars f.line.toList) with
    | none => rfl
    | some rest =>
      refine absurd ⟨rest, ?_⟩ f.not_prefix
      simp only [Text.trimmed, Text.after?_eq_some_iff.mp h, String.toList_ofList]
      rfl
  simp [readLine, readOutside, declaration?, hnone]

/-- The opening line of a declaration opens its block. -/
theorem readLine_open (labels : ClassLabels) {name : List Char} (hne : name ≠ [])
    (htrim : Text.trimChars name = name) (hopen : '\x7b' ∉ name) :
    readLine (labels, .outside) (keyword ++ (name ++ [' '] ++ ['\x7b'])) =
      (labels, .inside name []) := by
  have hline : Text.trimChars (keyword ++ (name ++ [' '] ++ ['\x7b'])) =
      keyword ++ (name ++ [' '] ++ ['\x7b']) := by
    refine Text.trimChars_eq_self (fun c hc => ?_) (fun c hc => ?_)
    · obtain rfl : 'c' = c := Option.some.inj hc
      decide
    · obtain rfl : '\x7b' = c := by simpa using hc
      decide
  have hrest : Text.trimChars (name ++ [' '] ++ ['\x7b']) = name ++ [' '] ++ ['\x7b'] := by
    refine Text.trimChars_eq_self (fun c hc => ?_) (fun c hc => ?_)
    · rw [List.append_assoc, List.head?_append_of_ne_nil _ hne] at hc
      exact (Text.trimChars_eq_self_iff.mp htrim).1 c hc
    · obtain rfl : '\x7b' = c := by simpa using hc
      decide
  have hdeclared : declaration? (keyword ++ (name ++ [' '] ++ ['\x7b'])) =
      some (name ++ [' '] ++ ['\x7b']) := by
    rw [declaration?, hline, Text.after?_eq_some_iff.mpr rfl, Option.map_some, hrest]
  have hcut : Text.splitAtChar? '\x7b' (name ++ [' '] ++ ['\x7b']) = some (name ++ [' '], []) := by
    refine Text.splitAtChar?_append ?_ []
    simpa using hopen
  have hname : Text.trimChars (name ++ [' ']) = name := by
    rw [Text.trimChars_concat (by decide), htrim]
  simp only [readLine, readOutside, hdeclared, hcut, hname]
  rfl

/-- A line inside of a block that does not close it is a member. -/
theorem readLine_member (labels : ClassLabels) (name : List Char) (members : List (List Char))
    {m : List Char} (hne : m ≠ []) (htrim : Text.trimChars m = m) (hclose : '\x7d' ∉ m) :
    readLine (labels, .inside name members) m = (labels, .inside name (members ++ [m])) := by
  simp [readLine, readInside, Text.splitAtChar?_eq_none hclose, addMember, htrim, hne]

/-- The closing line of a block declares the class. -/
theorem readLine_close (labels : ClassLabels) (name : List Char) (members : List (List Char)) :
    readLine (labels, .inside name members) ['\x7d'] = (declare labels name members, .outside) :=
  rfl

/-! ### Reading the parts of a text -/

/-- Lines inside of a block that do not close it are members. -/
theorem foldl_readLine_members (labels : ClassLabels) (name : List Char)
    (members : List (List Char)) {ms : List (List Char)} (hne : ∀ m ∈ ms, m ≠ [])
    (htrim : ∀ m ∈ ms, Text.trimChars m = m) (hclose : ∀ m ∈ ms, '\x7d' ∉ m) :
    ms.foldl readLine (labels, .inside name members) = (labels, .inside name (members ++ ms)) := by
  induction ms generalizing members with
  | nil => rw [List.append_nil]; rfl
  | cons m ms ih =>
    rw [List.forall_mem_cons] at hne htrim hclose
    rw [List.foldl_cons, readLine_member labels name members hne.1 htrim.1 hclose.1,
      ih _ hne.2 htrim.2 hclose.2, List.append_assoc, List.singleton_append]

/-- A trimmed string has trimmed characters. -/
theorem trimChars_toList {s : String} (h : Text.trimmed s = s) :
    Text.trimChars s.toList = s.toList := by
  conv_rhs => rw [← h, Text.trimmed, String.toList_ofList]

/-- Declaring a class with its members puts its label. -/
theorem declare_declaration (labels : ClassLabels) (d : Declaration) :
    declare labels d.name.toList (d.members.map String.toList) = labels.put d.name d.label := by
  have hlabel : labelOf d.name.toList (d.members.map String.toList) = d.label.toList := by
    rw [labelOf, Text.join_eq_intercalate, Declaration.label, String.toList_intercalate]
    rfl
  have hne : d.name.toList ≠ [] := by simpa using d.name_ne
  rw [declare, hlabel, String.ofList_toList, String.ofList_toList]
  simp [hne]

/-- The lines of a declaration put its label. -/
theorem foldl_readLine_declaration (labels : ClassLabels) (d : Declaration) :
    (d.lines.map String.toList).foldl readLine (labels, .outside) =
      (labels.put d.name d.label, .outside) := by
  have hopen : ("class " ++ d.name ++ " \x7b").toList =
      keyword ++ (d.name.toList ++ [' '] ++ ['\x7b']) := by
    simp [String.toList_append, keyword]
  have hmembers : ∀ m ∈ d.members.map String.toList, ∃ s ∈ d.members, s.toList = m := by
    simp
  rw [Declaration.lines, List.map_cons, hopen, List.foldl_cons,
    readLine_open labels (by simpa using d.name_ne) (trimChars_toList d.name_trimmed) d.name_open,
    List.map_append, List.foldl_append, foldl_readLine_members]
  · rw [← declare_declaration]
    exact readLine_close labels _ _
  · rintro m hm
    obtain ⟨s, hs, rfl⟩ := hmembers m hm
    simpa using d.member_ne s hs
  · rintro m hm
    obtain ⟨s, hs, rfl⟩ := hmembers m hm
    exact trimChars_toList (d.member_trimmed s hs)
  · rintro m hm
    obtain ⟨s, hs, rfl⟩ := hmembers m hm
    exact d.member_close s hs

/-- The lines of parts put the labels of the declarations among them, one after the other. -/
theorem foldl_readLine_parts (labels : ClassLabels) (parts : List Part) :
    ((parts.flatMap Part.lines).map String.toList).foldl readLine (labels, .outside) =
      (labels.putAll (parts.flatMap Part.entries), .outside) := by
  induction parts generalizing labels with
  | nil => rfl
  | cons part parts ih =>
    rw [List.flatMap_cons, List.map_append, List.foldl_append, List.flatMap_cons,
      Keyed.putAll_append]
    cases part with
    | filler f =>
      rw [show (Part.filler f).lines.map String.toList = [f.line.toList] from rfl,
        List.foldl_cons, readLine_filler]
      exact ih labels
    | declaration d =>
      rw [Part.lines, foldl_readLine_declaration]
      exact ih _

/-- No line of a part has a newline in it. -/
theorem Part.newline_notMem (part : Part) : ∀ l ∈ part.lines, '\n' ∉ l.toList := by
  cases part with
  | filler f =>
    intro l hl
    rw [List.mem_singleton.mp hl]
    exact f.newline_notMem
  | declaration d =>
    intro l hl
    simp only [Part.lines, Declaration.lines, List.mem_cons, List.mem_append, List.not_mem_nil,
      or_false] at hl
    rcases hl with rfl | hl | rfl
    · simp [String.toList_append, d.name_line]
    · exact d.member_line l hl
    · decide

/-- The labels of a text that was made of declarations and other lines are those of the
declarations, put in their order.  The last declaration of a class counts, and its place is that of
the first one. -/
theorem ofText_render (parts : List Part) :
    ofText (render parts) = Keyed.ofList (parts.flatMap Part.entries) ∧
      (ofText (render parts)).keys = ((parts.flatMap Part.entries).map (·.1)).eraseDups ∧
      ∀ key, (ofText (render parts)).get? key =
        (parts.flatMap Part.entries).reverse.lookup key := by
  have hlines : ∀ l ∈ (parts.flatMap Part.lines).map String.toList, '\n' ∉ l := by
    intro l hl
    obtain ⟨s, hs, rfl⟩ := List.mem_map.mp hl
    obtain ⟨part, _, hpart⟩ := List.mem_flatMap.mp hs
    exact part.newline_notMem s hpart
  have hread : ofText (render parts) = Keyed.ofList (parts.flatMap Part.entries) := by
    rw [ofText, scan, render, String.toList_intercalate]
    rw [show ("\n" : String).toList = ['\n'] from rfl,
      Text.foldl_lines_intercalate readLine_nil readLine_dropReturn hlines, foldl_readLine_parts]
    rfl
  refine ⟨hread, ?_, fun key => ?_⟩
  · rw [hread, Keyed.keys_ofList]
  · rw [hread, Keyed.get?_ofList]

/-- A class with a member that looks like the opening line of a class. -/
def imitator : Declaration where
  name := "A"
  members := ["class X \x7b", "+ f()"]
  name_ne := by decide
  name_trimmed := by decide
  name_line := by decide
  name_open := by decide
  member_ne := by decide
  member_trimmed := by decide
  member_line := by decide
  member_close := by decide

/-- A member that looks like an opening line declares nothing. -/
theorem ofText_imitator :
    ofText (render [.filler ⟨"classDiagram", by decide, by decide⟩, .declaration imitator]) =
      [("A", "A\nclass X \x7b\n+ f()")] := by
  rw [(ofText_render _).1]
  rfl

end DiagramScene.ClassLabels
