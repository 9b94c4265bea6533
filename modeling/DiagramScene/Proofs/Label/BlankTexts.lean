import Mathlib
import DiagramScene.Proofs.Label.Blocks
import DiagramScene.Proofs.Label.Extracted
import DiagramScene.Proofs.Scene.Materialized

/-!
# Blank texts

The text that a shape carries counts only if it is not blank, while an entry of the labels counts as
it is.  So materialization makes a blank text of a blank entry, and of nothing else
(`IsBlock.freeOfBlanks_iff`).  The labels of a diagram text have no such entry, but labels that are
put together otherwise may have.

The main statement is `materialize_freeOfBlanks_iff`: a run makes no blank text exactly if no shape
of it finds its text in a blank entry.
-/

namespace DiagramScene

open Text (isBlankText)

variable {α σ : Type}

namespace Label

/-! ### The text that counts -/

/-- A text that a shape carries counts before an entry for its id or its class. -/
theorem text?_eq_ite (labels : ClassLabels) (shape : Element α) :
    text? labels shape =
      if trimmedText shape = "" then classText? labels shape else some (trimmedText shape) := by
  rw [text?, inlineText?_eq]
  split_ifs <;> simp_all

/-- A shape without a text of its own has the one of its entry, whatever id it goes by. -/
theorem text?_eq_classText? {labels : ClassLabels} {shape : Element α} {id : String}
    (h : trimmedText shape = "") :
    text? labels { shape with id := id } = classText? labels { shape with id := id } := by
  rw [text?_eq_ite]
  exact if_pos h

/-- The text that counts is the one that is found. -/
theorem text?_eq_some_of_resolves {labels : ClassLabels} {shape : Element α} {text : String}
    (h : Resolves labels shape shape.id text) : text? labels shape = some text := by
  rw [text?_eq_ite, classText?]
  unfold Resolves at h
  split_ifs at h with htrimmed hid
  · rw [if_neg htrimmed, h]
  · rw [if_pos (not_not.mp htrimmed), h, Option.some_or]
  · obtain ⟨c, hc, hentry⟩ := h
    have hnone : labels.get? shape.id = none := by
      rwa [← Keyed.isSome_get?, Option.not_isSome_iff_eq_none] at hid
    rw [if_pos (not_not.mp htrimmed), hc, Option.bind_some, hnone, Option.none_or, hentry]

/-- A text that a shape carries is not blank. -/
theorem isBlankText_trimmedText {shape : Element α} (h : trimmedText shape ≠ "") :
    isBlankText (trimmedText shape) = false := by
  refine Text.isBlankText_of_trimmed h ?_
  unfold trimmedText
  cases shape.label with
  | none => rfl
  | some label => exact Text.trimmed_trimmed label.text

/-! ### Blocks -/

/-- The shape as it goes by the id of the first element of its block. -/
def goingBy (shape e : Element α) : Element α := { shape with id := e.id }

/-- The elements that stand for a shape make no blank text: each text that is made has a character
that is not blank, and a shape whose text is blank, or that has none, stands alone and has attached
what it had before. -/
structure FreeOfBlanks (labels : ClassLabels) (shape : Element α) (block : List (Element α)) :
    Prop where
  texts : ∀ t ∈ block.tail, ∃ content, t.kind = .text content ∧ isBlankText content.text = false
  alone : ∀ e ∈ block.head?, isBlankText ((text? labels (goingBy shape e)).getD "") = true →
    block = [e] ∧ e.boundElements = shape.boundElements

/-- A shape without a text of its own does not find a blank one in an entry for its id or its
class. -/
def FindsNoBlank (labels : ClassLabels) (shape : Element α) (block : List (Element α)) : Prop :=
  trimmedText shape = "" → ∀ e ∈ block.head?, ∀ entry ∈ classText? labels (goingBy shape e),
    isBlankText entry = false

variable {source : IdSource σ} {labels : ClassLabels} {shape : Element α} {s s' : σ}
  {block : List (Element α)}

/-- The text that counts is not blank exactly if it is not that of a blank entry. -/
theorem findsNoBlank_iff : FindsNoBlank labels shape block ↔
    ∀ e ∈ block.head?, ∀ text ∈ text? labels (goingBy shape e), isBlankText text = false := by
  by_cases htrimmed : trimmedText shape = ""
  · have hentry (e : Element α) :
        text? labels (goingBy shape e) = classText? labels (goingBy shape e) :=
      text?_eq_classText? htrimmed
    simp only [FindsNoBlank, hentry]
    exact ⟨fun h => h htrimmed, fun h _ => h⟩
  · constructor
    · intro _ e _ text htext
      have hown : text? labels (goingBy shape e) = some (trimmedText shape) := by
        rw [text?_eq_ite]
        exact if_neg htrimmed
      exact Option.some.inj (hown.symm.trans htext) ▸ isBlankText_trimmedText htrimmed
    · exact fun _ h => absurd h htrimmed

/-- A shape makes no blank text exactly if it does not find one. -/
theorem IsBlock.freeOfBlanks_iff (h : IsBlock source labels shape s block s') :
    FreeOfBlanks labels shape block ↔ FindsNoBlank labels shape block := by
  rw [findsNoBlank_iff]
  cases h with
  | @bare id s₁ named no_text =>
    have hnone : text? labels { shape with id := id } = none := by
      rw [← Option.not_isSome_iff_eq_none, isSome_text?_iff]
      exact no_text
    constructor
    · intro _ e he text htext
      obtain rfl := Option.some.inj he
      exact absurd (htext.symm.trans hnone) (Option.some_ne_none text)
    · intro _
      refine ⟨List.forall_mem_nil _, fun e he _ => ?_⟩
      obtain rfl := Option.some.inj he
      exact ⟨rfl, rfl⟩
  | @labeled id s₁ text content named has_text text_id text_kind text_label container resolves
      original =>
    have hfound : text? labels { shape with id := id } = some content.text :=
      text?_eq_some_of_resolves resolves
    constructor
    · intro hfree e he found htext
      obtain rfl := Option.some.inj he
      obtain ⟨content', hkind, hblank⟩ := hfree.texts text List.mem_cons_self
      obtain rfl := ElementKind.text.inj (text_kind.symm.trans hkind)
      exact Option.some.inj (hfound.symm.trans htext) ▸ hblank
    · intro hfinds
      have hblank : isBlankText content.text = false := hfinds _ rfl _ hfound
      refine ⟨fun t ht => ?_, fun e he halone => ?_⟩
      · rw [List.mem_singleton.mp ht]
        exact ⟨content, text_kind, hblank⟩
      · obtain rfl := Option.some.inj he
        -- nothing is asked of a shape whose text is not blank
        rw [goingBy, hfound, Option.getD_some, hblank] at halone
        exact absurd halone Bool.false_ne_true

/-- Each shape of a run makes no blank text exactly if it does not find one. -/
theorem Blocks.freeOfBlanks_iff {shapes : List (Element α)} {blocks : List (List (Element α))}
    (h : Blocks source labels shapes s blocks s') :
    List.Forall₂ (fun shape block => FreeOfBlanks labels shape block ↔
      FindsNoBlank labels shape block) shapes blocks := by
  induction h with
  | nil s => exact .nil
  | cons hblock _ ih => exact .cons hblock.freeOfBlanks_iff ih

/-- The block of a shape with an id begins with an element that has it. -/
theorem IsBlock.exists_head (h : IsBlock source labels shape s block s') (hne : shape.id ≠ "") :
    ∃ e ∈ block.head?, e.id = shape.id := by
  cases h with
  | bare named => exact ⟨_, rfl, named.id_eq hne⟩
  | labeled named => exact ⟨_, rfl, named.id_eq hne⟩

/-- A shape without a text of its own finds the entry for its id, also if that is blank. -/
theorem IsBlock.not_findsNoBlank (h : IsBlock source labels shape s block s')
    (hne : shape.id ≠ "") (htrimmed : trimmedText shape = "") {entry : String}
    (hentry : labels.get? shape.id = some entry) (hblank : isBlankText entry = true) :
    ¬ FindsNoBlank labels shape block := by
  intro hfinds
  obtain ⟨e, he, hid⟩ := h.exists_head hne
  have hclass : classText? labels (goingBy shape e) = some entry := by
    rw [classText?, goingBy, hid, hentry, Option.some_or]
  exact absurd hblank (by rw [hfinds htrimmed e he entry hclass]; exact Bool.false_ne_true)

/-- Labels without a blank entry have none to be found. -/
theorem findsNoBlank_of_forall (hlabels : ∀ e ∈ labels, isBlankText e.2 = false)
    (shape : Element α) (block : List (Element α)) : FindsNoBlank labels shape block := by
  intro _ e _ entry hentry
  rcases Option.or_eq_some_iff.mp hentry with hid | ⟨-, hclass⟩
  · exact hlabels _ (Keyed.mem_of_get? hid)
  · obtain ⟨c, -, hc⟩ := Option.bind_eq_some_iff.mp hclass
    exact hlabels _ (Keyed.mem_of_get? hc)

/-- A run over labels without a blank entry makes no blank text. -/
theorem Blocks.freeOfBlanks {shapes : List (Element α)} {blocks : List (List (Element α))}
    (h : Blocks source labels shapes s blocks s')
    (hlabels : ∀ e ∈ labels, isBlankText e.2 = false) :
    List.Forall₂ (FreeOfBlanks labels) shapes blocks :=
  h.freeOfBlanks_iff.imp fun shape block hiff =>
    hiff.mpr (findsNoBlank_of_forall hlabels shape block)

end Label

/-- Materialization makes no blank text of a shape exactly if the shape, where it has no text of its
own, does not find one in an entry for its id or its class.  So it makes none if no entry is
blank. -/
theorem materialize_freeOfBlanks_iff [Scalar α] (source : IdSource σ) (measurer : Measurer α)
    (labels : ClassLabels) (shapes : List (Element α)) (s : σ) :
    ∃ blocks, (materialize source measurer labels shapes s).1 = blocks.flatten ∧
      Label.Blocks source labels shapes s blocks (materialize source measurer labels shapes s).2 ∧
      List.Forall₂ (fun shape block => Label.FreeOfBlanks labels shape block ↔
        Label.FindsNoBlank labels shape block) shapes blocks ∧
      ((∀ e ∈ labels, isBlankText e.2 = false) →
        List.Forall₂ (Label.FreeOfBlanks labels) shapes blocks) := by
  obtain ⟨blocks, hflat, hblocks⟩ := Label.exists_blocks source measurer labels shapes s
  exact ⟨blocks, hflat, hblocks, hblocks.freeOfBlanks_iff, hblocks.freeOfBlanks⟩

/-- A shape with an id and without a text. -/
def plainBox : Element Float :=
  { Element.ofKind .rectangle with id := "a" }

/-- An entry that is not blank makes no blank text. -/
theorem materialize_freeOfBlanks_plainBox :
    ∃ blocks, (materialize letterSource Measurer.default [("a", " A ")] [plainBox] 0).1 =
        blocks.flatten ∧
      List.Forall₂ (Label.FreeOfBlanks [("a", " A ")]) [plainBox] blocks := by
  obtain ⟨blocks, hflat, -, -, hfree⟩ :=
    materialize_freeOfBlanks_iff letterSource Measurer.default [("a", " A ")] [plainBox] 0
  exact ⟨blocks, hflat, hfree (by decide)⟩

/-- An empty entry for the id of a shape is materialized. -/
theorem not_freeOfBlanks_emptyEntry :
    ¬ ∀ (labels : ClassLabels) (shapes : List (Element Float)), ∃ blocks,
      (materialize letterSource Measurer.default labels shapes 0).1 = blocks.flatten ∧
        Label.Blocks letterSource labels shapes 0 blocks
          (materialize letterSource Measurer.default labels shapes 0).2 ∧
        List.Forall₂ (Label.FreeOfBlanks labels) shapes blocks := by
  intro h
  obtain ⟨blocks, -, hblocks, hfree⟩ := h [("a", "")] [plainBox]
  cases hblocks with
  | cons hblock _ =>
    have hfinds : Label.FindsNoBlank [("a", "")] plainBox _ :=
      hblock.freeOfBlanks_iff.mp (List.forall₂_cons.mp hfree).1
    exact hblock.not_findsNoBlank (by decide) rfl rfl rfl hfinds

/-- No label of a diagram text makes a blank text. -/
theorem materialize_freeOfBlanks_ofText [Scalar α] (source : IdSource σ) (measurer : Measurer α)
    (text : String) (shapes : List (Element α)) (s : σ) :
    ∃ blocks, (materialize source measurer (.ofText text) shapes s).1 = blocks.flatten ∧
      List.Forall₂ (Label.FreeOfBlanks (.ofText text)) shapes blocks := by
  obtain ⟨blocks, hflat, hblocks⟩ := Label.exists_blocks source measurer (.ofText text) shapes s
  refine ⟨blocks, hflat, hblocks.freeOfBlanks fun e he => ?_⟩
  obtain ⟨d, rfl⟩ := ClassLabels.isDeclared_of_mem_close (ClassLabels.sound_scan text.toList) e he
  exact d.not_blank_label

end DiagramScene
