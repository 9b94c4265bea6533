import Mathlib
import DiagramScene.Proofs.Svg.WellFormed
import DiagramScene.Proofs.Text.Lines

/-!
# Texts in drawings

What has been escaped can be read back: `unescape` goes through a text and puts the character in
the place of each entity.  The text of an element is drawn in spans, one for each of its lines, and
what the spans say is the text again, but for the carriage returns at the ends of lines.

The main statement is `isEscaped_escape_and_inSpans_fragment`.
-/

namespace DiagramScene.Svg

/-! ### Reading back -/

/-- A text with the characters in the place of the entities that stand for them. -/
def unescape : List Char → List Char
  | '&' :: 'a' :: 'm' :: 'p' :: ';' :: cs => '&' :: unescape cs
  | '&' :: 'l' :: 't' :: ';' :: cs => '<' :: unescape cs
  | '&' :: 'g' :: 't' :: ';' :: cs => '>' :: unescape cs
  | '&' :: 'q' :: 'u' :: 'o' :: 't' :: ';' :: cs => '"' :: unescape cs
  | '&' :: '#' :: '3' :: '9' :: ';' :: cs => '\'' :: unescape cs
  | c :: cs => c :: unescape cs
  | [] => []

/-- An entity is read as its character. -/
theorem unescape_append {name : List Char} {c : Char} (h : (name, c) ∈ entities)
    (cs : List Char) : unescape (name ++ cs) = c :: unescape cs := by
  simp only [entities, List.mem_cons, Prod.mk.injEq, List.not_mem_nil, or_false] at h
  rcases h with ⟨rfl, rfl⟩ | ⟨rfl, rfl⟩ | ⟨rfl, rfl⟩ | ⟨rfl, rfl⟩ | ⟨rfl, rfl⟩ <;> rfl

/-- Another character than the first one of the entities is read as itself. -/
theorem unescape_cons {c : Char} (h : c ≠ '&') (cs : List Char) :
    unescape (c :: cs) = c :: unescape cs := by
  rw [unescape]
  all_goals simp [h]

/-- A character with a meaning in markup is written as its entity. -/
theorem escapedChar_mem_entities {c : Char} (h : c ∈ markupSigns) :
    (escapedChar c, c) ∈ entities := by
  simp only [markupSigns, List.mem_cons, List.not_mem_nil, or_false] at h
  rcases h with rfl | rfl | rfl | rfl | rfl <;> simp [entities, escapedChar]

/-- What has been escaped is read back. -/
theorem unescape_escape (cs : List Char) : unescape (escape cs) = cs := by
  induction cs with
  | nil =>
    rw [escape_nil]
    rfl
  | cons c cs ih =>
    rw [escape_cons]
    by_cases hc : c ∈ markupSigns
    · rw [unescape_append (escapedChar_mem_entities hc), ih]
    · have hne : c ≠ '&' := fun h => hc (h ▸ List.mem_cons_self)
      rw [escapedChar_of_notMem hc, List.singleton_append, unescape_cons hne, ih]

/-- The characters of a text from one on begin with an entity. -/
def BeginsWithEntity (cs : List Char) : Prop := ∃ entity ∈ entities, entity.1 <+: cs

/-- An entity has its first character nowhere else. -/
theorem eq_nil_of_mem_entities {name before after : List Char} {c : Char}
    (h : (name, c) ∈ entities) (heq : name = before ++ '&' :: after) : before = [] := by
  have hall : ∀ entity ∈ entities, '&' ∉ entity.1.tail := by decide
  cases before with
  | nil => rfl
  | cons b before =>
    refine absurd ?_ (hall _ h)
    rw [heq]
    exact List.mem_append_right before List.mem_cons_self

/-- Every ampersand of what has been escaped begins an entity. -/
theorem beginsWithEntity_of_escape {cs before after : List Char}
    (h : escape cs = before ++ '&' :: after) : BeginsWithEntity ('&' :: after) := by
  induction cs generalizing before with
  | nil =>
    rw [escape_nil] at h
    exact absurd h.symm (List.append_ne_nil_of_right_ne_nil before (List.cons_ne_nil '&' after))
  | cons c cs ih =>
    rw [escape_cons] at h
    obtain ⟨rest, _, hrest⟩ | ⟨rest, hchar, hrest⟩ := List.append_eq_append_iff.mp h
    · exact ih hrest
    · cases rest with
      | nil => exact @ih [] hrest.symm
      | cons d rest =>
        -- the ampersand is written for the first character, so that it begins its entity
        obtain ⟨rfl, rfl⟩ := List.cons.inj hrest
        by_cases hc : c ∈ markupSigns
        · have hmem := escapedChar_mem_entities hc
          rw [eq_nil_of_mem_entities hmem hchar, List.nil_append] at hchar
          exact ⟨_, hmem, hchar ▸ List.prefix_append _ _⟩
        · rw [escapedChar_of_notMem hc] at hchar
          have hsame : '&' ∈ [c] := hchar ▸ List.mem_append_right before List.mem_cons_self
          exact absurd (List.mem_singleton.mp hsame ▸ List.mem_cons_self) hc

/-- No character but the ampersand has a meaning in what has been escaped. -/
theorem notMem_escape {c : Char} (h : c ∈ ['<', '>', '"', '\'']) (cs : List Char) :
    c ∉ escape cs := by
  have hsign : c ∈ markupSigns := List.mem_cons_of_mem '&' h
  have hentities : ∀ entity ∈ entities, ∀ d ∈ ['<', '>', '"', '\''], d ∉ entity.1 := by
    simp [entities]
  rw [escape_eq_flatMap, List.mem_flatMap]
  rintro ⟨d, _, hd⟩
  by_cases hmem : d ∈ markupSigns
  · exact hentities _ (escapedChar_mem_entities hmem) c h hd
  · rw [escapedChar_of_notMem hmem] at hd
    exact hmem (List.mem_singleton.mp hd ▸ hsign)

/-- A text stands in markup, where nothing of it can be taken for a tag or for the end of a value,
and can be read back. -/
structure IsEscaped (text cs : List Char) : Prop where
  unescape_eq : unescape cs = text
  notMem : ∀ c ∈ ['<', '>', '"', '\''], c ∉ cs
  ampersand : ∀ before after, cs = before ++ '&' :: after → BeginsWithEntity ('&' :: after)

/-- Escaping a text makes it stand in markup. -/
theorem isEscaped_escape (text : List Char) : IsEscaped text (escape text) where
  unescape_eq := unescape_escape text
  notMem _ hc := notMem_escape hc text
  ampersand _ _ h := beginsWithEntity_of_escape h

/-! ### Spans -/

/-- A span of a text: the attributes of its tag, and the characters between its tags. -/
structure Span where
  attributes : List Attribute
  content : List Char

/-- The characters of a span. -/
def Span.chars (s : Span) : List Char :=
  openingChars "tspan" s.attributes ++ '>' :: s.content ++ closingChars "tspan"

/-- The characters are those of a text in spans, one span for each of the lines. -/
structure InSpans (lines : List (List Char)) (attributes : List Attribute) (spans : List Span)
    (cs : List Char) : Prop where
  chars : cs = openingChars "text" attributes ++ '>' :: spans.flatMap Span.chars ++
    closingChars "text"
  tag : ConformingTag "text" attributes
  spanTags : ∀ s ∈ spans, ConformingTag "tspan" s.attributes
  contents : spans.map Span.content = lines.map escape

/-- The spans of lines say what the lines are. -/
theorem InSpans.unescape_contents {lines : List (List Char)} {attributes : List Attribute}
    {spans : List Span} {cs : List Char} (h : InSpans lines attributes spans cs) :
    spans.map (fun s => unescape s.content) = lines := by
  have hmap : spans.map (fun s => unescape s.content) = (spans.map Span.content).map unescape := by
    rw [List.map_map]
    rfl
  rw [hmap, h.contents, List.map_map]
  exact List.map_id'' unescape_escape lines

section Drawing

variable (e : Element Float) (t : TextContent Float)

/-- The span of a numbered line of a text. -/
def spanOf (line : List Char × Nat) : Span :=
  ⟨[("x", numberText (textAnchor e t).2), ("y", numberText (baseline e t line.2))],
    escape line.1⟩

/-- The node of a numbered line of a text. -/
def spanNode (line : List Char × Nat) : Node :=
  .branch "tspan" (spanOf e t line).attributes [.text (String.ofList line.1)]

/-- The node of a line is written as its span. -/
theorem chars_spanNode (line : List Char × Nat) :
    (spanNode e t line).chars = (spanOf e t line).chars := by
  rw [spanNode, Node.chars, charsOfList_cons, charsOfList_nil, List.append_nil, Node.chars,
    String.toList_ofList, Span.chars, spanOf]

/-- The tag of a span has the attributes that it may have. -/
theorem conformingTag_spanOf (line : List Char × Nat) :
    ConformingTag "tspan" (spanOf e t line).attributes :=
  ⟨_, rfl, .own (isOwn_numberText _) (.own (isOwn_numberText _) .nil)⟩

/-- The spans of numbered lines hold the lines, in their order. -/
theorem map_content_spanOf (lines : List (List Char)) :
    (lines.zipIdx.map (spanOf e t)).map Span.content = lines.map escape := by
  have hcontent : Span.content ∘ spanOf e t = escape ∘ Prod.fst := rfl
  rw [List.map_map, hcontent, ← List.map_map, List.zipIdx_map_fst]

variable {t}

/-- A text that is not empty has one node, and in it one for each of its lines. -/
theorem exists_nodes_textFragment (h : t.text ≠ "") : ∃ attributes,
    (textFragment e t).nodes = [.branch "text" attributes (t.lines.zipIdx.map (spanNode e t))] := by
  have hne : t.text.isEmpty = false := by simpa using h
  rw [textFragment, hne]
  exact ⟨_, rfl⟩

/-- A text that is not empty is drawn in spans, one for each of its lines. -/
theorem exists_inSpans_textFragment (h : t.text ≠ "") : ∃ attributes spans,
    InSpans t.lines attributes spans (charsOfList (textFragment e t).nodes) := by
  obtain ⟨attributes, hnodes⟩ := exists_nodes_textFragment e h
  have hconforms := (conforms_textFragment e t).nodes
  rw [hnodes] at hconforms ⊢
  refine ⟨attributes, t.lines.zipIdx.map (spanOf e t), ?_, ?_, fun s hs => ?_,
    map_content_spanOf e t _⟩
  · rw [charsOfList_cons, charsOfList_nil, List.append_nil, Node.chars, charsOfList_eq_flatMap,
      List.flatMap_map, List.flatMap_map]
    simp only [chars_spanNode]
  · cases hconforms _ List.mem_cons_self with
    | branch htag _ => exact htag
  · obtain ⟨line, _, rfl⟩ := List.mem_map.mp hs
    exact conformingTag_spanOf e t line

end Drawing

/-! ### What a drawing says of a text -/

/-- Whatever a text is, it is put together of slices that begin and end between its characters and
of entities, it stands in markup without being taken for a part of it, and it can be read back.  An
element that is a text which is not empty is drawn in spans, one for each line.  What they say, put
together with newlines, is the text without the carriage returns before its newlines and the one at
its end. -/
theorem isEscaped_escape_and_inSpans_fragment :
    (∀ text : String, IsEscaped text.toList (escape text.toList) ∧
      escape text.toList = (pieces text).flatMap (Piece.chars text) ∧
      ∀ start stop, .slice start stop ∈ pieces text → IsSlice text start stop) ∧
    ∀ (files : Members) (before : Nat) (e : Element Float) (t : TextContent Float),
      e.kind = .text t → t.text ≠ "" → ∃ attributes spans,
        InSpans (Text.textLines t.text.toList) attributes spans
          (charsOfList (fragment files before e).nodes) ∧
        spans.length = t.text.toList.count '\n' + 1 ∧
        ['\n'].intercalate (spans.map fun s => unescape s.content) =
          Text.withoutReturns t.text.toList := by
  refine ⟨fun text => ⟨isEscaped_escape _, ?_, fun _ _ hslice => isSlice_of_mem_pieces hslice⟩,
    fun files before e t he ht => ?_⟩
  · rw [escape_eq_flatMap]
    exact (writtenAs_pieces text).chars.symm
  · have hfragment : fragment files before e = textFragment e t := by rw [fragment, he]
    obtain ⟨attributes, spans, hspans⟩ := exists_inSpans_textFragment e ht
    have hsaid := hspans.unescape_contents
    refine ⟨attributes, spans, hfragment ▸ hspans, ?_, ?_⟩
    · have hlength := congrArg List.length hsaid
      rwa [List.length_map, TextContent.lines, Text.length_textLines] at hlength
    · rw [hsaid]
      exact Text.intercalate_textLines _

/-- A text of two lines with characters that have a meaning in markup, one that is not ASCII, and
both kinds of line ends. -/
def twoLines : TextContent Float :=
  { TextContent.empty with text := "a < ü\r\n& \"c\"\r" }

/-- The spans of the text hold its lines, from which the text is read back. -/
theorem inSpans_fragment_twoLines : ∃ (attributes : List Attribute) (spans : List Span),
    charsOfList (fragment [] 0 (Element.ofKind (.text twoLines))).nodes =
      openingChars "text" attributes ++ '>' :: spans.flatMap Span.chars ++ closingChars "text" ∧
    spans.map (fun s => String.ofList s.content) = ["a &lt; ü", "&amp; &quot;c&quot;"] ∧
    ['\n'].intercalate (spans.map fun s => unescape s.content) = "a < ü\n& \"c\"".toList := by
  obtain ⟨attributes, spans, hspans, -, hsaid⟩ := isEscaped_escape_and_inSpans_fragment.2 [] 0
    (Element.ofKind (.text twoLines)) twoLines rfl (by decide)
  refine ⟨attributes, spans, hspans.chars, ?_, hsaid⟩
  have hcontents := congrArg (List.map String.ofList) hspans.contents
  rw [List.map_map, List.map_map] at hcontents
  refine hcontents.trans ?_
  have hescape : escape = fun cs => cs.flatMap escapedChar := funext escape_eq_flatMap
  rw [hescape]
  rfl

end DiagramScene.Svg
