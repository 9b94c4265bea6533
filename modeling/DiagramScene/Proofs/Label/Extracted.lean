import Mathlib
import DiagramScene.Proofs.Label.ClassBody

/-!
# Labels are those of declarations

Whatever a text looks like, each label that is found in it is that of a declaration: a name that is
trimmed and does not open a block, and members that are trimmed, not blank, and do not close it.  So
there is no other label than those that rendering declarations gives.

The scan keeps `Sound`: the labels so far are of this kind, and so are the name and the members of
an open block, except that the name may be empty, in which case the block declares nothing.
-/

namespace DiagramScene.ClassLabels

/-- A trimmed part of a line that does not open a block. -/
structure IsName (name : List Char) : Prop where
  trimmed : Text.trimChars name = name
  line : '\n' ∉ name
  opens : '\x7b' ∉ name

/-- A trimmed part of a line that is not blank and does not close a block. -/
structure IsMember (m : List Char) : Prop where
  ne : m ≠ []
  trimmed : Text.trimChars m = m
  line : '\n' ∉ m
  closes : '\x7d' ∉ m

/-- A part of a line that does not open a block is a name when it is trimmed. -/
theorem isName_trimChars {cs : List Char} (hline : '\n' ∉ cs) (hopen : '\x7b' ∉ cs) :
    IsName (Text.trimChars cs) where
  trimmed := Text.trimChars_trimChars cs
  line h := hline (Text.mem_of_mem_trimChars h)
  opens h := hopen (Text.mem_of_mem_trimChars h)

/-- A word of a part of a line that does not open a block is a name. -/
theorem isName_of_mem_words {cs w : List Char} (hopen : '\x7b' ∉ cs) (hw : w ∈ Text.words cs) :
    w ≠ [] ∧ IsName w := by
  obtain ⟨hne, hmem⟩ := Text.mem_words hw
  refine ⟨hne, Text.trimChars_of_not_blank fun c hc => (hmem c hc).1, fun h => ?_, fun h => ?_⟩
  · exact absurd (hmem _ h).1 (by decide)
  · exact hopen (hmem _ h).2

/-- A part of a line that does not close a block adds a member, unless it is blank. -/
theorem isMember_of_mem_addMember {members : List (List Char)} {raw : List Char}
    (hmembers : ∀ m ∈ members, IsMember m) (hline : '\n' ∉ raw) (hclose : '\x7d' ∉ raw) :
    ∀ m ∈ addMember members raw, IsMember m := by
  intro m hm
  rw [addMember] at hm
  split at hm
  · exact hmembers m hm
  · rename_i hne
    rcases List.mem_append.mp hm with hm | hm
    · exact hmembers m hm
    · obtain rfl := List.mem_singleton.mp hm
      exact ⟨by simpa using hne, Text.trimChars_trimChars raw,
        fun h => hline (Text.mem_of_mem_trimChars h), fun h => hclose (Text.mem_of_mem_trimChars h)⟩

/-! ### Declarations that were read -/

/-- The declaration of a class with a name and members. -/
def Declaration.ofChars {name : List Char} {members : List (List Char)} (hne : name ≠ [])
    (hname : IsName name) (hmembers : ∀ m ∈ members, IsMember m) : Declaration where
  name := String.ofList name
  members := members.map String.ofList
  name_ne := by simpa using hne
  name_trimmed := by rw [Text.trimmed, String.toList_ofList, hname.trimmed]
  name_line := by simpa using hname.line
  name_open := by simpa using hname.opens
  member_ne := by
    rw [List.forall_mem_map]
    exact fun m hm => by simpa using (hmembers m hm).ne
  member_trimmed := by
    rw [List.forall_mem_map]
    exact fun m hm => by rw [Text.trimmed, String.toList_ofList, (hmembers m hm).trimmed]
  member_line := by
    rw [List.forall_mem_map]
    exact fun m hm => by simpa using (hmembers m hm).line
  member_close := by
    rw [List.forall_mem_map]
    exact fun m hm => by simpa using (hmembers m hm).closes

/-- The label is that of a declaration under its name. -/
def IsDeclared (e : String × String) : Prop := ∃ d : Declaration, e = (d.name, d.label)

/-- Declaring a class adds the label of a declaration, or nothing. -/
theorem isDeclared_of_mem_declare {labels : ClassLabels} {name : List Char}
    {members : List (List Char)} (hlabels : ∀ e ∈ labels, IsDeclared e) (hname : IsName name)
    (hmembers : ∀ m ∈ members, IsMember m) : ∀ e ∈ declare labels name members, IsDeclared e := by
  intro e he
  by_cases hne : name = []
  · rw [declare, hne] at he
    exact hlabels e he
  · let d := Declaration.ofChars hne hname hmembers
    have hdeclare : declare labels name members = labels.put d.name d.label := by
      rw [← declare_declaration]
      simp [d, Declaration.ofChars, Function.comp_def]
    rw [hdeclare] at he
    rcases Keyed.eq_or_mem_of_mem_put he with rfl | he
    · exact ⟨d, rfl⟩
    · exact hlabels e he

/-! ### The scan -/

/-- The labels so far are those of declarations, and what is open may become one. -/
structure Sound (state : ClassLabels × Scan) : Prop where
  labels : ∀ e ∈ state.1, IsDeclared e
  inside : ∀ name members, state.2 = .inside name members →
    IsName name ∧ ∀ m ∈ members, IsMember m

/-- Outside of a block the labels count alone. -/
theorem Sound.outside {labels : ClassLabels} (h : ∀ e ∈ labels, IsDeclared e) :
    Sound (labels, .outside) := ⟨h, nofun⟩

/-- Inside of a block its name and members count as well. -/
theorem Sound.opened {labels : ClassLabels} (h : ∀ e ∈ labels, IsDeclared e) {name : List Char}
    {members : List (List Char)} (hname : IsName name) (hmembers : ∀ m ∈ members, IsMember m) :
    Sound (labels, .inside name members) := by
  refine ⟨h, fun name' members' heq => ?_⟩
  obtain ⟨rfl, rfl⟩ := Scan.inside.inj heq
  exact ⟨hname, hmembers⟩

/-- A line inside of a block adds a member, and may close the block. -/
theorem sound_readInside {labels : ClassLabels} (h : ∀ e ∈ labels, IsDeclared e) {name : List Char}
    {members : List (List Char)} (hname : IsName name) (hmembers : ∀ m ∈ members, IsMember m)
    {line : List Char} (hline : '\n' ∉ line) : Sound (readInside labels name members line) := by
  unfold readInside
  split
  · rename_i tail rest hcut
    obtain ⟨rfl, hclose⟩ := Text.splitAtChar?_eq_some_iff.mp hcut
    have htail : '\n' ∉ tail := fun hmem => hline (List.mem_append_left _ hmem)
    exact .outside
      (isDeclared_of_mem_declare h hname (isMember_of_mem_addMember hmembers htail hclose))
  · rename_i hcut
    have hclose := Text.splitAtChar?_eq_none_iff.mp hcut
    exact .opened h hname (isMember_of_mem_addMember hmembers hline hclose)

/-- The rest of a declaration's line is a part of the line. -/
theorem mem_of_declaration? {line rest : List Char} (h : declaration? line = some rest) {c : Char}
    (hc : c ∈ rest) : c ∈ line := by
  obtain ⟨after, hafter, rfl⟩ := Option.map_eq_some_iff.mp h
  refine Text.mem_of_mem_trimChars ?_
  rw [Text.after?_eq_some_iff.mp hafter]
  exact List.mem_append_right keyword (Text.mem_of_mem_trimChars hc)

/-- A line outside of a block may declare a class or open a block. -/
theorem sound_readOutside {labels : ClassLabels} (h : ∀ e ∈ labels, IsDeclared e)
    {line : List Char} (hline : '\n' ∉ line) : Sound (readOutside labels line) := by
  unfold readOutside
  split
  · exact .outside h
  · rename_i rest hrest
    have hrest : '\n' ∉ rest := fun hmem => hline (mem_of_declaration? hrest hmem)
    split
    · rename_i hcut
      have hopen := Text.splitAtChar?_eq_none_iff.mp hcut
      split
      · exact .outside h
      · rename_i name others hwords
        have hname := isName_of_mem_words hopen (hwords ▸ List.mem_cons_self ..)
        exact .outside (isDeclared_of_mem_declare h hname.2 (List.forall_mem_nil _))
    · rename_i head after hcut
      obtain ⟨rfl, hopen⟩ := Text.splitAtChar?_eq_some_iff.mp hcut
      have hname : IsName (Text.trimChars head) :=
        isName_trimChars (fun hmem => hrest (List.mem_append_left _ hmem)) hopen
      have hafter : '\n' ∉ after := fun hmem =>
        hrest (List.mem_append_right head (List.mem_cons_of_mem _ hmem))
      -- What stands behind the opening brace is read like a line inside of the block.
      exact sound_readInside h hname (List.forall_mem_nil _) hafter

/-- Reading a line keeps the labels sound. -/
theorem sound_readLine {state : ClassLabels × Scan} (h : Sound state) {line : List Char}
    (hline : '\n' ∉ line) : Sound (readLine state line) := by
  obtain ⟨labels, scan⟩ := state
  cases scan with
  | outside => exact sound_readOutside h.labels hline
  | inside name members =>
    obtain ⟨hname, hmembers⟩ := h.inside name members rfl
    exact sound_readInside h.labels hname hmembers hline

/-- Reading lines one after the other keeps the labels sound. -/
theorem sound_foldl_readLine {state : ClassLabels × Scan} (h : Sound state)
    {lines : List (List Char)} (hlines : ∀ l ∈ lines, '\n' ∉ l) :
    Sound (lines.foldl readLine state) := by
  induction lines generalizing state with
  | nil => exact h
  | cons line lines ih =>
    rw [List.forall_mem_cons] at hlines
    exact ih (sound_readLine h hlines.1) hlines.2

/-- The scan of a text is sound. -/
theorem sound_scan (cs : List Char) : Sound (scan cs) := by
  rw [scan, Text.foldl_lines readLine_nil readLine_dropReturn]
  exact sound_foldl_readLine (.outside (List.forall_mem_nil _)) fun _ hl =>
    Text.newline_notMem_of_mem_pieces hl

/-- Ending the scan declares what is open. -/
theorem isDeclared_of_mem_close {state : ClassLabels × Scan} (h : Sound state) :
    ∀ e ∈ close state, IsDeclared e := by
  obtain ⟨labels, scan⟩ := state
  cases scan with
  | outside => exact h.labels
  | inside name members =>
    obtain ⟨hname, hmembers⟩ := h.inside name members rfl
    exact isDeclared_of_mem_declare h.labels hname hmembers

/-! ### Labels -/

/-- The lines of a label are the name and the members. -/
theorem Declaration.pieces_label (d : Declaration) :
    Text.pieces d.label.toList = (d.name :: d.members).map String.toList := by
  rw [label, String.toList_intercalate]
  refine Text.pieces_intercalate (List.cons_ne_nil _ _) fun l hl => ?_
  obtain ⟨s, hs, rfl⟩ := List.mem_map.mp hl
  rcases List.mem_cons.mp hs with rfl | hs
  · exact d.name_line
  · exact d.member_line s hs

/-- A label is trimmed, as its first and its last line are. -/
theorem Declaration.trimmed_label (d : Declaration) : Text.trimmed d.label = d.label := by
  have hlines : ∀ l ∈ (d.name :: d.members).map String.toList, l ≠ [] ∧ Text.trimChars l = l := by
    rw [List.forall_mem_map, List.forall_mem_cons]
    refine ⟨⟨by simpa using d.name_ne, trimChars_toList d.name_trimmed⟩, fun m hm => ?_⟩
    exact ⟨by simpa using d.member_ne m hm, trimChars_toList (d.member_trimmed m hm)⟩
  have hlabel : Text.trimChars d.label.toList = d.label.toList := by
    rw [label, String.toList_intercalate]
    exact Text.trimChars_intercalate hlines
  rw [Text.trimmed, hlabel, String.ofList_toList]

/-- A label is not blank. -/
theorem Declaration.not_blank_label (d : Declaration) : Text.isBlankText d.label = false := by
  have hne : d.label ≠ "" := by
    intro h
    have hpieces := d.pieces_label
    rw [h, List.map_cons] at hpieces
    exact d.name_ne (String.toList_eq_nil_iff.mp (List.cons.inj hpieces).1.symm)
  exact Text.isBlankText_of_trimmed hne d.trimmed_label

/-- Each label that is found in a text is that of a declaration, under its name.  Its lines are the
name and the members; it is trimmed and not blank. -/
theorem ofText_declared (text : String) : ∀ e ∈ ofText text, ∃ d : Declaration,
    e = (d.name, d.label) ∧
      Text.pieces d.label.toList = (d.name :: d.members).map String.toList ∧
      Text.trimmed d.label = d.label ∧ Text.isBlankText d.label = false := by
  intro e he
  obtain ⟨d, rfl⟩ := isDeclared_of_mem_close (sound_scan text.toList) e he
  exact ⟨d, rfl, d.pieces_label, d.trimmed_label, d.not_blank_label⟩

/-- A text with a block without a name, braces in odd places and a block that is not closed. -/
def unrulyText : String :=
  "class \x7b\nx\n\x7d\nclass A \x7d b \x7b \x7b+f\x7d \x7d\n class B \x7b\r\n\t +y \r"

/-- A label of that text. -/
theorem ofText_unrulyText : ("A \x7d b", "A \x7d b\n\x7b+f") ∈ ofText unrulyText ∧
    ∃ d : Declaration, ("A \x7d b", "A \x7d b\n\x7b+f") = (d.name, d.label) ∧
      Text.pieces d.label.toList = (d.name :: d.members).map String.toList ∧
      Text.trimmed d.label = d.label ∧ Text.isBlankText d.label = false := by
  have hmem : ("A \x7d b", "A \x7d b\n\x7b+f") ∈ ofText unrulyText := by decide
  exact ⟨hmem, ofText_declared unrulyText _ hmem⟩

end DiagramScene.ClassLabels
