import Mathlib
import DiagramScene.Proofs.Label.ClassBody

/-!
# Labels of a text that goes on

The scan of a text goes on behind the text from the state that it has reached there.  Outside of a
block, that is the scan of what follows as a text of its own, and its labels are put into the ones
so far, as the labels that the scan starts with make no difference to what it finds
(`foldl_readLine_eq_putAll`).  Inside of a block, the first lines still belong to the block
(`blockLines`), and the lines behind it (`linesBehind`) are again a text of their own.

The main statement is `ofText_continued`, about two texts with a newline between them.
-/

namespace DiagramScene.ClassLabels

/-! ### The end of a block -/

/-- A line with a closing brace ends the block that is open. -/
def endsBlock (line : List Char) : Bool := line.contains '\x7d'

/-- What belongs to an open block of the lines that follow: those before the first one with a
closing brace, and what stands in that one before the brace. -/
def blockLines (lines : List (List Char)) : List (List Char) :=
  lines.takeWhile (!endsBlock ·) ++
    ((lines.dropWhile (!endsBlock ·)).take 1).map (·.takeWhile (· != '\x7d'))

/-- The lines that follow the end of an open block. -/
def linesBehind (lines : List (List Char)) : List (List Char) :=
  (lines.dropWhile (!endsBlock ·)).drop 1

/-- The trimmed lines that are not blank. -/
def membersOf (lines : List (List Char)) : List (List Char) :=
  (lines.map Text.trimChars).filter (!·.isEmpty)

/-- The members that a text adds to a block that is open before it. -/
def blockMembers (text : String) : List String :=
  (membersOf (blockLines (Text.lines text.toList))).map String.ofList

/-- The lines of a text that follow the end of a block that is open before it, as a text. -/
def behindBlock (text : String) : String :=
  "\n".intercalate ((linesBehind (Text.lines text.toList)).map String.ofList)

/-- A line is cut at its closing brace. -/
theorem splitAtChar?_of_endsBlock {line : List Char} (h : endsBlock line = true) :
    ∃ rest, Text.splitAtChar? '\x7d' line = some (line.takeWhile (· != '\x7d'), rest) := by
  have hmem : '\x7d' ∈ line := by simpa [endsBlock] using h
  obtain ⟨before, rest, rfl, hbefore⟩ := List.eq_append_cons_of_mem hmem
  have htake : (before ++ '\x7d' :: rest).takeWhile (· != '\x7d') = before := by
    rw [List.takeWhile_append_of_pos]
    · simp
    · intro c hc
      exact bne_iff_ne.mpr fun heq => hbefore (heq ▸ hc)
  exact ⟨rest, by rw [htake, Text.splitAtChar?_append hbefore]⟩

/-- A line without a closing brace is not cut. -/
theorem splitAtChar?_of_not_endsBlock {line : List Char} (h : endsBlock line = false) :
    Text.splitAtChar? '\x7d' line = none := by
  apply Text.splitAtChar?_eq_none
  simpa [endsBlock] using h

/-- A line adds itself as a member, if it is not blank. -/
theorem addMember_eq_append (members : List (List Char)) (line : List Char) :
    addMember members line = members ++ membersOf [line] := by
  unfold addMember membersOf
  by_cases h : Text.trimChars line = []
  · simp [h]
  · simp [h]

/-- The members of a first line come before those of the lines behind it. -/
theorem membersOf_cons (line : List Char) (lines : List (List Char)) :
    membersOf (line :: lines) = membersOf [line] ++ membersOf lines := by
  unfold membersOf
  rw [← List.filter_append]
  rfl

/-- Lines inside of a block extend it to its end, and the scan goes on outside of it. -/
theorem close_foldl_readInside (labels : ClassLabels) (name : List Char)
    (members lines : List (List Char)) :
    close (lines.foldl readLine (labels, .inside name members)) =
      close ((linesBehind lines).foldl readLine
        (declare labels name (members ++ membersOf (blockLines lines)), .outside)) := by
  induction lines generalizing members with
  | nil => rw [show membersOf (blockLines []) = [] from rfl, List.append_nil]; rfl
  | cons line lines ih =>
    cases h : endsBlock line with
    | true =>
      obtain ⟨rest, hcut⟩ := splitAtChar?_of_endsBlock h
      have hread : readLine (labels, .inside name members) line =
          (declare labels name (addMember members (line.takeWhile (· != '\x7d'))), .outside) := by
        simp only [readLine, readInside, hcut]
      have hblock : blockLines (line :: lines) = [line.takeWhile (· != '\x7d')] := by
        simp [blockLines, h]
      have hbehind : linesBehind (line :: lines) = lines := by simp [linesBehind, h]
      rw [List.foldl_cons, hread, hblock, hbehind, addMember_eq_append]
    | false =>
      have hread : readLine (labels, .inside name members) line =
          (labels, .inside name (addMember members line)) := by
        simp only [readLine, readInside, splitAtChar?_of_not_endsBlock h]
      have hblock : blockLines (line :: lines) = line :: blockLines lines := by
        simp [blockLines, h]
      have hbehind : linesBehind (line :: lines) = linesBehind lines := by simp [linesBehind, h]
      rw [List.foldl_cons, hread, ih, hblock, hbehind, addMember_eq_append, List.append_assoc,
        ← membersOf_cons]

/-! ### The labels before -/

/-- Declaring a class puts what it declares among no labels. -/
theorem declare_eq_putAll (labels : ClassLabels) (name : List Char) (members : List (List Char)) :
    declare labels name members = labels.putAll (declare [] name members) := by
  unfold declare
  by_cases h : name = []
  · simp [h, Keyed.putAll_nil]
  · simp [h, Keyed.putAll, Keyed.put_nil]

/-- A line inside of a block puts what it declares among no labels. -/
theorem readInside_eq_putAll (labels : ClassLabels) (name : List Char)
    (members : List (List Char)) (line : List Char) :
    readInside labels name members line =
      (labels.putAll (readInside [] name members line).1, (readInside [] name members line).2) := by
  unfold readInside
  cases Text.splitAtChar? '\x7d' line with
  | none => rfl
  | some cut => exact Prod.ext (declare_eq_putAll labels name _) rfl

/-- A line outside of a block puts what it declares among no labels. -/
theorem readOutside_eq_putAll (labels : ClassLabels) (line : List Char) :
    readOutside labels line =
      (labels.putAll (readOutside [] line).1, (readOutside [] line).2) := by
  unfold readOutside
  cases declaration? line with
  | none => rfl
  | some rest =>
    dsimp only
    cases Text.splitAtChar? '\x7b' rest with
    | none =>
      cases Text.words rest with
      | nil => rfl
      | cons name others => exact Prod.ext (declare_eq_putAll labels name []) rfl
    | some cut =>
      -- What stands behind the opening brace is read like a line inside of the block.
      exact readInside_eq_putAll labels (Text.trimChars cut.1) [] cut.2

/-- A line puts what it declares among no labels. -/
theorem readLine_eq_putAll (labels : ClassLabels) (scan : Scan) (line : List Char) :
    readLine (labels, scan) line =
      (labels.putAll (readLine ([], scan) line).1, (readLine ([], scan) line).2) := by
  cases scan with
  | outside => exact readOutside_eq_putAll labels line
  | inside name members => exact readInside_eq_putAll labels name members line

/-- The labels that a line declares have distinct keys. -/
theorem nodup_keys_readLine (scan : Scan) (line : List Char) :
    (Keyed.keys (readLine ([], scan) line).1).Nodup := by
  rw [readLine_eq_putAll]
  exact Keyed.nodup_keys_ofList _

/-- Lines put what they declare among no labels, whatever the labels are before. -/
theorem foldl_readLine_eq_putAll (labels : ClassLabels) (scan : Scan) (lines : List (List Char)) :
    lines.foldl readLine (labels, scan) =
      (labels.putAll (lines.foldl readLine ([], scan)).1,
        (lines.foldl readLine ([], scan)).2) := by
  induction lines generalizing labels scan with
  | nil => rfl
  | cons line lines ih =>
    obtain ⟨first, next, hfirst⟩ :
        ∃ first next, readLine ([], scan) line = (first, next) := ⟨_, _, rfl⟩
    have hdistinct : (Keyed.keys first).Nodup := by
      have hkeys := nodup_keys_readLine scan line
      rwa [hfirst] at hkeys
    have hread : readLine (labels, scan) line = (labels.putAll first, next) := by
      rw [readLine_eq_putAll, hfirst]
    rw [List.foldl_cons, List.foldl_cons, hread, hfirst, ih (labels.putAll first), ih first,
      Keyed.putAll_putAll labels hdistinct]

/-- The labels that lines declare have distinct keys. -/
theorem nodup_keys_foldl_readLine (scan : Scan) (lines : List (List Char)) :
    (Keyed.keys (lines.foldl readLine ([], scan)).1).Nodup := by
  rw [foldl_readLine_eq_putAll]
  exact Keyed.nodup_keys_ofList _

/-- The end of a text puts the open block among the labels that were put before. -/
theorem close_putAll (labels : ClassLabels) {entries : ClassLabels}
    (hdistinct : (Keyed.keys entries).Nodup) (scan : Scan) :
    close (labels.putAll entries, scan) = labels.putAll (close (entries, scan)) := by
  cases scan with
  | outside => rfl
  | inside name members =>
    calc declare (labels.putAll entries) name members
      _ = (labels.putAll entries).putAll (declare [] name members) := declare_eq_putAll _ _ _
      _ = labels.putAll (entries.putAll (declare [] name members)) :=
        (Keyed.putAll_putAll labels hdistinct _).symm
      _ = labels.putAll (declare entries name members) := by rw [← declare_eq_putAll]

/-- The labels of a text are put into the ones with which the scan starts. -/
theorem close_foldl_readLine (labels : ClassLabels) (scan : Scan) (lines : List (List Char)) :
    close (lines.foldl readLine (labels, scan)) =
      labels.putAll (close (lines.foldl readLine ([], scan))) := by
  rw [foldl_readLine_eq_putAll, close_putAll labels (nodup_keys_foldl_readLine scan lines)]

/-- The labels of a text have distinct keys. -/
theorem nodup_keys_ofText (text : String) : (Keyed.keys (ofText text)).Nodup := by
  have hput : ofText text = Keyed.putAll [] (ofText text) := close_foldl_readLine [] .outside _
  rw [hput]
  exact Keyed.nodup_keys_ofList _

/-! ### Two texts -/

/-- Behind a newline the scan goes on from where it was. -/
theorem scan_newline (cs ds : List Char) :
    scan (cs ++ '\n' :: ds) = (Text.lines ds).foldl readLine (scan cs) := by
  simp only [scan, Text.foldl_lines readLine_nil readLine_dropReturn, Text.pieces_append,
    List.foldl_append]

/-- The labels of a text that goes on behind a newline. -/
theorem ofText_newline (text more : String) :
    ofText (text ++ "\n" ++ more) =
      close ((Text.lines more.toList).foldl readLine (scan text.toList)) := by
  have hchars : (text ++ "\n" ++ more).toList = text.toList ++ '\n' :: more.toList := by
    simp [String.toList_append]
  rw [ofText, hchars, scan_newline]

/-- The lines behind a block are scanned as a text of their own. -/
theorem ofText_behindBlock (more : String) :
    ofText (behindBlock more) =
      close ((linesBehind (Text.lines more.toList)).foldl readLine ([], .outside)) := by
  have hlines : ∀ l ∈ linesBehind (Text.lines more.toList), '\n' ∉ l := by
    intro l hl
    apply Text.newline_notMem_of_mem_lines
    exact (List.dropWhile_sublist _).mem ((List.drop_sublist 1 _).mem hl)
  have hchars : (behindBlock more).toList =
      ['\n'].intercalate (linesBehind (Text.lines more.toList)) := by
    simp [behindBlock, String.toList_intercalate, Function.comp_def]
  rw [ofText, scan, hchars, Text.foldl_lines_intercalate readLine_nil readLine_dropReturn hlines]

/-- More members stand behind the label that the others make. -/
theorem labelOf_append (name : List Char) (members others : List (List Char)) :
    String.ofList (labelOf name (members ++ others)) =
      "\n".intercalate (String.ofList (labelOf name members) :: others.map String.ofList) := by
  rw [← String.toList_inj, String.toList_intercalate, String.toList_ofList]
  simp only [labelOf, Text.join_eq_intercalate, List.map_cons, List.map_map, Function.comp_def,
    String.toList_ofList, List.map_id']
  exact (Text.intercalate_cons_intercalate ['\n'] name members others).symm

/-- The label of a class with a name is found once the class is declared. -/
theorem declare_of_ne_nil (labels : ClassLabels) {name : List Char} (hname : name ≠ [])
    (members : List (List Char)) : declare labels name members =
      labels.put (String.ofList name) (String.ofList (labelOf name members)) := by
  rw [declare, if_neg (by simpa using hname)]

/-- The labels of a text that goes on behind a newline.  If no block is open there, the labels of
what follows are put into those of the text: they count, in the places that their keys have already
or behind the others.  In an open block, the first lines of what follows only add members to the
label of the class, or nothing at all if the block has no name; the labels of the lines behind the
block are put into the rest in the same way. -/
theorem ofText_continued (text more : String) :
    ((scan text.toList).2 = .outside →
      ofText (text ++ "\n" ++ more) = (ofText text).putAll (ofText more) ∧
        (∀ key, (ofText (text ++ "\n" ++ more)).get? key =
          ((ofText more).get? key).or ((ofText text).get? key)) ∧
        (ofText (text ++ "\n" ++ more)).keys =
          (ofText text).keys ++ (ofText more).keys.filter (· ∉ (ofText text).keys)) ∧
      ∀ name members, (scan text.toList).2 = .inside name members →
        (name = [] → ofText (text ++ "\n" ++ more) =
          (ofText text).putAll (ofText (behindBlock more))) ∧
        (name ≠ [] → ∃ label, (ofText text).get? (String.ofList name) = some label ∧
          ofText (text ++ "\n" ++ more) =
            ((ofText text).put (String.ofList name)
              ("\n".intercalate (label :: blockMembers more))).putAll
                (ofText (behindBlock more))) := by
  obtain ⟨labels, state, hscan⟩ :
      ∃ labels state, scan text.toList = (labels, state) := ⟨_, _, rfl⟩
  have htext : ofText text = close (labels, state) := by rw [ofText, hscan]
  have hmore : ofText (text ++ "\n" ++ more) =
      close ((Text.lines more.toList).foldl readLine (labels, state)) := by
    rw [ofText_newline, hscan]
  rw [hscan]
  constructor
  · rintro rfl
    have hput : ofText (text ++ "\n" ++ more) = (ofText text).putAll (ofText more) := by
      rw [hmore, htext]
      exact close_foldl_readLine labels .outside _
    have hdistinct := nodup_keys_ofText more
    rw [hput]
    exact ⟨rfl, Keyed.get?_putAll _ hdistinct, Keyed.keys_putAll _ hdistinct⟩
  · rintro name members rfl
    have hput : ofText (text ++ "\n" ++ more) =
        (declare labels name (members ++ membersOf (blockLines (Text.lines more.toList)))).putAll
          (ofText (behindBlock more)) := by
      rw [hmore, close_foldl_readInside, close_foldl_readLine, ofText_behindBlock]
    constructor
    · rintro rfl
      rw [hput, htext]
      rfl
    · intro hname
      have hlabels : ofText text =
          labels.put (String.ofList name) (String.ofList (labelOf name members)) :=
        htext.trans (declare_of_ne_nil labels hname members)
      refine ⟨String.ofList (labelOf name members), ?_, ?_⟩
      · rw [hlabels, Keyed.get?_put_self]
      · rw [hput, hlabels, declare_of_ne_nil labels hname, labelOf_append, Keyed.put_put_self]
        rfl

/-- A text that ends in an open block. -/
def openText : String := "class A\nclass B \x7b\n+x"

/-- A text that closes a block, goes on with a class of before, and opens another block. -/
def closingText : String := " +y \n\n+z\x7d +w\nclass A \x7b +a\x7d\nclass C \x7b\n+c"

/-- The block that the one text leaves open is closed in the other one, whose other labels follow;
and a text that leaves no block open goes on with what was left open. -/
theorem ofText_continued_openText :
    (scan openText.toList).2 = .inside ['B'] [['+', 'x']] ∧
      ofText (openText ++ "\n" ++ closingText) =
        [("A", "A\n+a"), ("B", "B\n+x\n+y\n+z"), ("C", "C\n+c")] ∧
      (scan "class A".toList).2 = .outside ∧
      ofText ("class A" ++ "\n" ++ openText) = [("A", "A"), ("B", "B\n+x")] := by
  have hinside : (scan openText.toList).2 = .inside ['B'] [['+', 'x']] := by decide
  have houtside : (scan "class A".toList).2 = .outside := by decide
  obtain ⟨label, hlabel, hcontinued⟩ :=
    ((ofText_continued openText closingText).2 _ _ hinside).2 (by decide)
  have hput := ((ofText_continued "class A" openText).1 houtside).1
  obtain rfl : "B\n+x" = label := Option.some.inj (hlabel ▸ by decide)
  refine ⟨hinside, hcontinued.trans ?_, houtside, hput.trans ?_⟩
  · decide
  · decide

end DiagramScene.ClassLabels
