import Mathlib
import DiagramScene.Diagram.Header
import DiagramScene.Proofs.Text.Lines
import DiagramScene.Proofs.Text.Split

/-!
# What may stand before the header of a diagram

A `Preamble` is a block of front matter, if any, and then blank characters, comment lines and
directives in any number and order.

Front matter is dropped with the line breaks behind it, each directive as a whole, and a comment
leaves a newline (`bare_comment`, `bare_directive`).  What is left of a preamble are blanks, so the
text behind it is cleaned as if it stood alone, up to the blanks at its start (`bare_noise`).  The
known types may have blanks before their headers.  So a preamble never changes the type that is
found: this is `detect_preamble`.
-/

namespace DiagramScene.Diagram

/-! ### Preambles -/

/-- A comment line. -/
structure Comment where
  /-- The line behind its two signs. -/
  body : List Char
  newline_notMem : '\n' ∉ body
  /-- No directive begins in the line. -/
  start_notInfix : ¬ directiveStart <:+: '%' :: '%' :: body

/-- A directive. -/
structure Directive where
  body : List Char
  /-- The directive does not end before its end. -/
  end_notInfix : ¬ directiveEnd <:+: body

/-- A block of front matter. -/
structure FrontMatter where
  body : List Char
  /-- The block holds something. -/
  exists_not_blank : ∃ c ∈ body, Text.isBlank c = false
  /-- No line of the block closes it. -/
  closing_notInfix : ∀ c, isLineBreak c = true → ¬ c :: dashes <:+: body

/-- A piece of text that says nothing about the type of a diagram. -/
inductive Noise where
  | blank (c : Char) (h : Text.isBlank c = true)
  | comment (line : Comment)
  | directive (directive : Directive)

/-- What may stand before the header of a diagram. -/
structure Preamble where
  frontMatter : Option FrontMatter
  noise : List Noise

/-- The text of a comment line. -/
def Comment.chars (comment : Comment) : List Char := '%' :: '%' :: (comment.body ++ ['\n'])

/-- The text of a directive. -/
def Directive.chars (directive : Directive) : List Char :=
  directiveStart ++ (directive.body ++ directiveEnd)

/-- The text of a block of front matter. -/
def FrontMatter.chars (block : FrontMatter) : List Char :=
  dashes ++ '\n' :: (block.body ++ '\n' :: (dashes ++ ['\n']))

/-- The text of a piece. -/
def Noise.chars : Noise → List Char
  | .blank c _ => [c]
  | .comment line => line.chars
  | .directive d => d.chars

/-- The characters of a preamble. -/
def Preamble.chars (preamble : Preamble) : List Char :=
  preamble.frontMatter.elim [] FrontMatter.chars ++ preamble.noise.flatMap Noise.chars

/-- The text of a preamble. -/
def Preamble.text (preamble : Preamble) : String := String.ofList preamble.chars

/-! ### Directives -/

/-- A text without a directive is kept. -/
theorem dropDirectives_of_none {cs : List Char}
    (hstart : Text.splitAtSeq? directiveStart cs = none) : dropDirectives cs = cs := by
  rw [dropDirectives]
  split
  · rfl
  · rename_i hsome
    cases hstart.symm.trans hsome

/-- Of a directive that does not end, and all behind it, nothing is kept. -/
theorem dropDirectives_of_endless {cs before after : List Char}
    (hstart : Text.splitAtSeq? directiveStart cs = some (before, after))
    (hend : Text.splitAtSeq? directiveEnd after = none) : dropDirectives cs = before := by
  rw [dropDirectives]
  split
  · rename_i hnone
    cases hstart.symm.trans hnone
  · rename_i hsome
    obtain ⟨rfl, rfl⟩ := Prod.mk.inj (Option.some.inj (hstart.symm.trans hsome))
    split
    · rfl
    · rename_i hsome
      cases hend.symm.trans hsome

/-- Of a text with a directive the text before is kept, and what is kept of the text behind. -/
theorem dropDirectives_of_some {cs before after body rest : List Char}
    (hstart : Text.splitAtSeq? directiveStart cs = some (before, after))
    (hend : Text.splitAtSeq? directiveEnd after = some (body, rest)) :
    dropDirectives cs = before ++ dropDirectives rest := by
  rw [dropDirectives]
  split
  · rename_i hnone
    cases hstart.symm.trans hnone
  · rename_i hsome
    obtain ⟨rfl, rfl⟩ := Prod.mk.inj (Option.some.inj (hstart.symm.trans hsome))
    split
    · rename_i hnone
      cases hend.symm.trans hnone
    · rename_i hsome
      obtain ⟨rfl, rfl⟩ := Prod.mk.inj (Option.some.inj (hend.symm.trans hsome))
      rfl

/-- A character with which no directive begins is kept. -/
theorem dropDirectives_cons {c : Char} {cs : List Char} (h : ¬ directiveStart <+: c :: cs) :
    dropDirectives (c :: cs) = c :: dropDirectives cs := by
  have hsplit := Text.splitAtSeq?_cons h
  cases hstart : Text.splitAtSeq? directiveStart cs with
  | none =>
    rw [hstart, Option.map_none] at hsplit
    rw [dropDirectives_of_none hsplit, dropDirectives_of_none hstart]
  | some cut =>
    obtain ⟨before, after⟩ := cut
    rw [hstart, Option.map_some] at hsplit
    cases hend : Text.splitAtSeq? directiveEnd after with
    | none =>
      rw [dropDirectives_of_endless hsplit hend, dropDirectives_of_endless hstart hend]
    | some cut =>
      rw [dropDirectives_of_some hsplit hend, dropDirectives_of_some hstart hend,
        List.cons_append]

/-- A directive is dropped. -/
theorem dropDirectives_directive (directive : Directive) (cs : List Char) :
    dropDirectives (directive.chars ++ cs) = dropDirectives cs := by
  have hstart : Text.splitAtSeq? directiveStart (directive.chars ++ cs) =
      some ([], directive.body ++ (directiveEnd ++ cs)) := by
    rw [Directive.chars, List.append_assoc, List.append_assoc]
    exact Text.splitAtSeq?_append_self (by decide) _
  have hend : Text.splitAtSeq? directiveEnd (directive.body ++ (directiveEnd ++ cs)) =
      some (directive.body, cs) :=
    Text.splitAtSeq?_append (by decide) directive.end_notInfix cs
  rw [dropDirectives_of_some hstart hend, List.nil_append]

/-- A line in which no directive begins is kept. -/
theorem dropDirectives_line {line : List Char} (h : ¬ directiveStart <:+: line) (cs : List Char) :
    dropDirectives (line ++ '\n' :: cs) = line ++ '\n' :: dropDirectives cs := by
  induction line with
  | nil => exact dropDirectives_cons (by simp [directiveStart])
  | cons c line ih =>
    have hstart : ¬ directiveStart <+: c :: (line ++ '\n' :: cs) := by
      intro hbegins
      have hwithin : directiveStart <+: c :: line :=
        Text.prefix_of_prefix_append_cons (by decide) hbegins
      exact h hwithin.isInfix
    have hline : ¬ directiveStart <:+: line := fun hwithin =>
      h (hwithin.trans (List.suffix_cons c line).isInfix)
    rw [List.cons_append, dropDirectives_cons hstart, ih hline, List.cons_append]

/-! ### Comments -/

/-- A blank character where no comment begins is kept. -/
theorem dropComments_cons {c : Char} {cs : List Char} (h : afterComment? (c :: cs) = none) :
    dropComments (c :: cs) = c :: dropComments cs := by
  rw [dropComments]
  split
  · rename_i hsome
    cases h.symm.trans hsome
  · rfl

/-- A comment leaves a newline. -/
theorem dropComments_of_afterComment? {cs rest : List Char} (h : afterComment? cs = some rest) :
    dropComments cs = '\n' :: dropComments rest := by
  rw [dropComments]
  split
  · rename_i hsome
    rw [Option.some.inj (h.symm.trans hsome)]
  · rename_i hnone
    cases h.symm.trans hnone

/-- The comment behind a blank character is the one behind the blank characters after it. -/
theorem afterComment?_blank {c : Char} (hc : Text.isBlank c = true) (cs : List Char) :
    afterComment? (c :: cs) = afterComment? cs := by
  rw [afterComment?, afterComment?, List.dropWhile_cons_of_pos hc]

/-- A comment line is a comment. -/
theorem afterComment?_comment (comment : Comment) (cs : List Char) :
    afterComment? (comment.chars ++ cs) = some cs := by
  have hdrop : (comment.chars ++ cs).dropWhile Text.isBlank =
      '%' :: '%' :: (comment.body ++ '\n' :: cs) := by
    simp [Comment.chars, Text.isBlank]
  rw [afterComment?, hdrop]
  change (Text.splitAtChar? '\n' (comment.body ++ '\n' :: cs)).map (·.2) = some cs
  rw [Text.splitAtChar?_append comment.newline_notMem, Option.map_some]

/-! ### Blanks at the start of a text -/

/-- A text from its header on, without the blanks before it. -/
def bare (cs : List Char) : List Char :=
  Text.dropBlankStart (dropComments (dropDirectives cs))

/-- A blank character at the start makes no difference. -/
theorem bare_blank {c : Char} (hc : Text.isBlank c = true) (cs : List Char) :
    bare (c :: cs) = bare cs := by
  have hstart : ¬ directiveStart <+: c :: cs := by
    rintro ⟨rest, hrest⟩
    obtain rfl : '%' = c := (List.cons.inj hrest).1
    exact absurd hc (by decide)
  have hcomment := afterComment?_blank hc (dropDirectives cs)
  rw [bare, bare, dropDirectives_cons hstart]
  cases h : afterComment? (dropDirectives cs) with
  | none =>
    rw [dropComments_cons (hcomment.trans h), Text.dropBlankStart_cons_of_blank hc]
  | some rest =>
    rw [dropComments_of_afterComment? (hcomment.trans h), dropComments_of_afterComment? h]

/-- Blank characters at the start make no difference. -/
theorem bare_blanks {blanks : List Char} (h : ∀ c ∈ blanks, Text.isBlank c = true)
    (cs : List Char) : bare (blanks ++ cs) = bare cs := by
  induction blanks with
  | nil => rfl
  | cons c blanks ih =>
    rw [List.forall_mem_cons] at h
    rw [List.cons_append, bare_blank h.1, ih h.2]

/-- A comment line at the start makes no difference. -/
theorem bare_comment (comment : Comment) (cs : List Char) :
    bare (comment.chars ++ cs) = bare cs := by
  have hline : dropDirectives (comment.chars ++ cs) = comment.chars ++ dropDirectives cs := by
    simpa [Comment.chars] using dropDirectives_line comment.start_notInfix cs
  rw [bare, hline, dropComments_of_afterComment? (afterComment?_comment comment _),
    Text.dropBlankStart_cons_of_blank (by decide), bare]

/-- A directive at the start makes no difference. -/
theorem bare_directive (directive : Directive) (cs : List Char) :
    bare (directive.chars ++ cs) = bare cs := by
  rw [bare, dropDirectives_directive, bare]

/-- Blanks, comments and directives at the start make no difference. -/
theorem bare_noise (noise : List Noise) (cs : List Char) :
    bare (noise.flatMap Noise.chars ++ cs) = bare cs := by
  induction noise with
  | nil => rfl
  | cons piece noise ih =>
    rw [List.flatMap_cons, List.append_assoc]
    cases piece with
    | blank c h => exact (bare_blank h _).trans ih
    | comment line => exact (bare_comment line _).trans ih
    | directive d => exact (bare_directive d _).trans ih

/-! ### Front matter -/

/-- A text that does not begin with dashes has no front matter. -/
theorem dropFrontMatter_eq_self {cs : List Char} (h : ¬ dashes <+: cs) :
    dropFrontMatter cs = cs := by
  rw [dropFrontMatter, Text.after?_eq_none_iff.mpr h]

/-- A rest behind a line break stands behind blank characters. -/
theorem exists_blanks_of_mem_afterBreaks {cs rest : List Char} (h : rest ∈ afterBreaks cs) :
    ∃ blanks, blanks ≠ [] ∧ (∀ c ∈ blanks, Text.isBlank c = true) ∧ cs = blanks ++ rest := by
  induction cs with
  | nil => exact nomatch h
  | cons c cs ih =>
    rw [afterBreaks] at h
    by_cases hc : Text.isBlank c = true
    · have hbehind : rest = cs ∨ rest ∈ afterBreaks cs := by
        rw [if_pos hc] at h
        split at h
        · exact List.mem_cons.mp h
        · exact .inr h
      rcases hbehind with rfl | hbehind
      · exact ⟨[c], by simp, by simpa using hc, rfl⟩
      · obtain ⟨blanks, -, hblanks, rfl⟩ := ih hbehind
        exact ⟨c :: blanks, by simp, List.forall_mem_cons.mpr ⟨hc, hblanks⟩, rfl⟩
    · rw [if_neg hc] at h
      exact nomatch h

/-- A text that begins with a newline has a last rest behind the line breaks among its leading
blanks, and these blanks stand before it. -/
theorem exists_getLast?_afterBreaks (cs : List Char) :
    ∃ blanks rest, (∀ c ∈ blanks, Text.isBlank c = true) ∧ cs = blanks ++ rest ∧
      (afterBreaks ('\n' :: cs)).getLast? = some rest := by
  have hne : afterBreaks ('\n' :: cs) ≠ [] := by simp [afterBreaks, Text.isBlank, isLineBreak]
  have hlast := List.getLast?_eq_some_getLast hne
  obtain ⟨blanks, hcons, hblanks, heq⟩ :=
    exists_blanks_of_mem_afterBreaks (List.mem_of_getLast? hlast)
  obtain ⟨c, blanks, rfl⟩ := List.exists_cons_of_ne_nil hcons
  rw [List.forall_mem_cons] at hblanks
  exact ⟨blanks, _, hblanks.2, (List.cons.inj heq).2, hlast⟩

/-- Behind a body without a closing line the first closing line is the next one. -/
theorem afterClosing?_append {body : List Char}
    (h : ∀ c, isLineBreak c = true → ¬ c :: dashes <:+: body) {cs rest : List Char}
    (hrest : closing? ('\n' :: cs) = some rest) :
    afterClosing? (body ++ '\n' :: cs) = some rest := by
  induction body with
  | nil => rw [List.nil_append, afterClosing?, hrest, Option.some_or]
  | cons c body ih =>
    have hbody : ∀ d, isLineBreak d = true → ¬ d :: dashes <:+: body := fun d hd hwithin =>
      h d hd (hwithin.trans (List.suffix_cons c body).isInfix)
    have hopen : closing? (c :: (body ++ '\n' :: cs)) = none := by
      rw [closing?]
      split
      · rename_i hc
        have hdashes : ¬ dashes <+: body ++ '\n' :: cs := by
          intro hbegins
          have hbehind := Text.prefix_of_prefix_append_cons (by decide) hbegins
          exact h c hc ((List.prefix_cons_inj c).mpr hbehind).isInfix
        rw [Text.after?_eq_none_iff.mpr hdashes]
        rfl
      · rfl
    rw [List.cons_append, afterClosing?, hopen, Option.none_or, ih hbody]

/-- A closing line at hand is dropped with the line breaks behind it. -/
theorem exists_closing? (cs : List Char) :
    ∃ blanks rest, (∀ c ∈ blanks, Text.isBlank c = true) ∧ cs = blanks ++ rest ∧
      closing? ('\n' :: (dashes ++ '\n' :: cs)) = some rest := by
  obtain ⟨blanks, rest, hblanks, heq, hlast⟩ := exists_getLast?_afterBreaks cs
  refine ⟨blanks, rest, hblanks, heq, ?_⟩
  rw [closing?, if_pos (by decide), Text.after?_eq_some_iff.mpr rfl]
  exact hlast

/-- Front matter is dropped with the line breaks behind it. -/
theorem dropFrontMatter_frontMatter (block : FrontMatter) (cs : List Char) :
    ∃ blanks rest, (∀ c ∈ blanks, Text.isBlank c = true) ∧ cs = blanks ++ rest ∧
      dropFrontMatter (block.chars ++ cs) = rest := by
  obtain ⟨blanks, rest, hblanks, heq, hclosing⟩ := exists_closing? cs
  refine ⟨blanks, rest, hblanks, heq, ?_⟩
  -- The opening line takes with it the blank lines at the start of the body, but not all of it.
  obtain ⟨opening, inner, hopening, hinner, hlast⟩ :=
    exists_getLast?_afterBreaks (block.body ++ '\n' :: (dashes ++ '\n' :: cs))
  obtain ⟨body, hbody, rfl⟩ : ∃ body, block.body = opening ++ body ∧
      inner = body ++ '\n' :: (dashes ++ '\n' :: cs) := by
    rcases List.append_eq_append_iff.mp hinner with ⟨more, hmore, -⟩ | ⟨body, hbody, hrest⟩
    · obtain ⟨c, hc, hblank⟩ := block.exists_not_blank
      have hblank' := hopening c (hmore ▸ List.mem_append_left more hc)
      exact nomatch hblank.symm.trans hblank'
    · exact ⟨body, hbody, hrest⟩
  have hfree : ∀ c, isLineBreak c = true → ¬ c :: dashes <:+: body := fun c hc hwithin =>
    block.closing_notInfix c hc (hbody ▸ hwithin.trans (List.suffix_append opening body).isInfix)
  have hafter : Text.after? dashes (block.chars ++ cs) =
      some ('\n' :: (block.body ++ '\n' :: (dashes ++ '\n' :: cs))) :=
    Text.after?_eq_some_iff.mpr (by simp [FrontMatter.chars])
  have hfirst : (afterBreaks ('\n' :: (block.body ++ '\n' :: (dashes ++ '\n' :: cs)))
      ).reverse.findSome? afterClosing? = some rest := by
    obtain ⟨others, hothers⟩ := List.getLast?_eq_some_iff.mp hlast
    rw [hothers, List.reverse_append, List.reverse_singleton, List.singleton_append,
      List.findSome?_cons, afterClosing?_append hfree hclosing]
  rw [dropFrontMatter, hafter]
  change Option.getD (List.findSome? _ _) _ = rest
  rw [hfirst, Option.getD_some]

/-- Neither front matter nor noise at the start makes a difference, if what follows has no front
matter of its own. -/
theorem bare_preamble (preamble : Preamble) {cs : List Char} (h : ¬ dashes <+: cs) :
    bare (dropFrontMatter (preamble.chars ++ cs)) = bare cs := by
  obtain ⟨frontMatter, noise⟩ := preamble
  cases frontMatter with
  | some block =>
    obtain ⟨blanks, rest, hblanks, heq, hdrop⟩ :=
      dropFrontMatter_frontMatter block (noise.flatMap Noise.chars ++ cs)
    have hnoise := bare_noise noise cs
    rw [heq, bare_blanks hblanks] at hnoise
    rw [Preamble.chars, Option.elim_some, List.append_assoc, hdrop, hnoise]
  | none =>
    have hstart : ¬ dashes <+: noise.flatMap Noise.chars ++ cs := by
      cases noise with
      | nil => exact h
      | cons piece noise =>
        rintro ⟨rest, hrest⟩
        cases piece with
        | blank c hc =>
          obtain rfl : '-' = c := (List.cons.inj hrest).1
          exact absurd hc (by decide)
        | comment line => exact absurd (List.cons.inj hrest).1 (by decide)
        | directive d => exact absurd (List.cons.inj hrest).1 (by decide)
    rw [Preamble.chars, Option.elim_none, List.nil_append, dropFrontMatter_eq_self hstart,
      bare_noise]

/-! ### Detection -/

/-- A header may follow blank characters. -/
def Header.MayFollowBlanks : Header → Prop
  | .afterBlanks _ => True
  | .atStart _ => False

/-- Where all headers may follow blanks, the type depends on the text behind its blanks. -/
theorem typeOfClean?_congr {registry : Registry}
    (hregistry : ∀ d ∈ registry, d.header.MayFollowBlanks) {cs cs' : List Char}
    (h : Text.dropBlankStart cs = Text.dropBlankStart cs') :
    registry.typeOfClean? cs = registry.typeOfClean? cs' := by
  have hfind : registry.find? (·.header.isAtStartOf cs) =
      registry.find? (·.header.isAtStartOf cs') := by
    refine List.find?_congr fun d hd => ?_
    have hheader := hregistry d hd
    cases hkind : d.header with
    | afterBlanks words => simp only [Header.isAtStartOf, h]
    | atStart word =>
      rw [hkind] at hheader
      exact hheader.elim
  rw [Registry.typeOfClean?, hfind, Registry.typeOfClean?]

/-- The headers of the known types may follow blanks. -/
theorem mayFollowBlanks_of_mem_builtin : ∀ d ∈ Registry.builtin, d.header.MayFollowBlanks := by
  simp [Registry.builtin, Registry.detector, Header.MayFollowBlanks]

/-- A type is detected exactly when it is that of the cleaned text. -/
theorem detect_eq_ok_iff {registry : Registry} {text id : String} :
    registry.detect text = .ok id ↔ registry.typeOfClean? (clean text.toList) = some id := by
  rw [Registry.detect]
  cases registry.typeOfClean? (clean text.toList) with
  | none => simp
  | some id' => simp

/-- A preamble never changes the type of a text that has no front matter of its own. -/
theorem detect_preamble (preamble : Preamble) (text : String) (h : ¬ "---".toList <+: text.toList)
    (id : String) :
    Registry.builtin.detect (preamble.text ++ text) = .ok id ↔
      Registry.builtin.detect text = .ok id := by
  have hbare := bare_preamble preamble h
  have hclean : Text.dropBlankStart (clean (preamble.text ++ text).toList) =
      Text.dropBlankStart (clean text.toList) := by
    have hplain := dropFrontMatter_eq_self h
    rw [clean, clean, Preamble.text, String.toList_append, String.toList_ofList, hplain]
    exact hbare
  rw [detect_eq_ok_iff, detect_eq_ok_iff, typeOfClean?_congr mayFollowBlanks_of_mem_builtin hclean]

/-- Front matter whose body begins like a closing line, a directive that nearly ends before its
end, and a comment, each with blanks around. -/
def noisyPreamble : Preamble where
  frontMatter := some {
    body := "--- title\n\n a".toList
    exists_not_blank := ⟨'-', by decide, by decide⟩
    closing_notInfix := by
      intro c hc
      rcases (by simpa [isLineBreak] using hc : c = '\n' ∨ c = '\r') with rfl | rfl
      · decide
      · decide }
  noise := [.directive ⟨"init: \x7b\n\x7d%".toList, by decide⟩, .blank '\t' (by decide),
    .comment ⟨" a %% comment\r".toList, by decide, by decide⟩, .blank '\n' (by decide)]

/-- The type of a text is detected behind such a preamble. -/
theorem detect_noisyPreamble :
    ¬ "---".toList <+: " classDiagram\nclass A".toList ∧
      Registry.builtin.detect (noisyPreamble.text ++ " classDiagram\nclass A") =
        .ok "classDiagram" := by
  have hplain : Registry.builtin.detect " classDiagram\nclass A" = .ok "classDiagram" := by cbv
  exact ⟨by decide, (detect_preamble noisyPreamble _ (by decide) _).mpr hplain⟩

end DiagramScene.Diagram
