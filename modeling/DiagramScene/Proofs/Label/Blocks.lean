import Mathlib
import DiagramScene.Label.Materialize
import DiagramScene.Proofs.Keyed

/-!
# What stands in the place of a shape

`materialize` replaces every shape by a block of one or two elements: the shape without its label
and, if there is a text for it, that text.  `IsBlock` says what a block is without saying how it
is made, and `Blocks` threads the state of the id source through the blocks of a list.

The main statement is `materialize_eq_flatten`: the elements that come out are the blocks of the
shapes that went in, one after the other and in the same order.
-/

namespace DiagramScene

variable {α σ : Type}

namespace Label

/-! ### The text of a shape -/

/-- The text that a shape carries without the blanks around it; empty if it carries none. -/
def trimmedText (shape : Element α) : String :=
  (shape.label.map fun label => Text.trimmed label.text).getD ""

/-- There is a text for a shape that goes by an id: it carries one that is not blank, or there is an
entry for the id or for the class that the shape stands for. -/
def HasText (labels : ClassLabels) (shape : Element α) (id : String) : Prop :=
  trimmedText shape ≠ "" ∨ labels.contains id = true ∨
    ∃ c, shape.classId? = some c ∧ labels.contains c = true

/-- The text of a shape that goes by an id is the one that it carries; if that is blank, the entry
for the id, and if there is none, the entry for the class. -/
def Resolves (labels : ClassLabels) (shape : Element α) (id text : String) : Prop :=
  if trimmedText shape ≠ "" then text = trimmedText shape
  else if labels.contains id = true then labels.get? id = some text
  else ∃ c, shape.classId? = some c ∧ labels.get? c = some text

/-- The text on the shape itself is its trimmed text, where that is not empty. -/
theorem inlineText?_eq (shape : Element α) :
    inlineText? shape = if trimmedText shape ≠ "" then some (trimmedText shape) else none := by
  unfold inlineText? trimmedText
  cases shape.label with
  | none => simp
  | some label => by_cases h : Text.trimmed label.text = "" <;> simp [h]

/-- The entries of the map that a shape has by its class. -/
theorem isSome_bind_get? (labels : ClassLabels) (c? : Option String) :
    (c?.bind labels.get?).isSome = true ↔ ∃ c, c? = some c ∧ labels.contains c = true := by
  cases c? with
  | none => simp
  | some c => simp [Keyed.isSome_get?]

/-- A text is found exactly when there is one. -/
theorem isSome_text?_iff (labels : ClassLabels) (shape : Element α) :
    (text? labels shape).isSome = true ↔ HasText labels shape shape.id := by
  rw [text?, classText?, inlineText?_eq, HasText]
  by_cases h : trimmedText shape = ""
  · rw [← Keyed.isSome_get?, ← isSome_bind_get?]
    simp [h]
  · simp [h]

/-- Without classes the text of a shape is the one that it carries. -/
theorem text?_nil (shape : Element α) : text? [] shape = inlineText? shape := by
  have hclass : classText? [] shape = none := by
    unfold classText?
    cases shape.classId? <;> rfl
  rw [text?, hclass, Option.or_none]

/-- The text that is found is the one that counts. -/
theorem resolves_of_text?_eq_some {labels : ClassLabels} {shape : Element α} {text : String}
    (h : text? labels shape = some text) : Resolves labels shape shape.id text := by
  rw [text?, classText?, inlineText?_eq] at h
  unfold Resolves
  by_cases ht : trimmedText shape = ""
  · rw [← Keyed.isSome_get?]
    cases hid : labels.get? shape.id with
    | some entry => simpa [ht, hid] using h
    | none => simpa [ht, hid, Option.bind_eq_some_iff] using h
  · simpa [ht, eq_comm] using h

/-! ### Blocks -/

/-- A shape goes by its own id, or by a freshly drawn one if its own is empty. -/
inductive IsNamed (source : IdSource σ) (shape : Element α) (s : σ) : String → σ → Prop
  | own : shape.id ≠ "" → IsNamed source shape s shape.id s
  | drawn : shape.id = "" → IsNamed source shape s (source.nextId s).1 (source.nextId s).2

/-- The state of the id source after a text has been given its id, its two nonces and its time. -/
def afterText (source : IdSource σ) (s : σ) : σ :=
  (source.now (source.nextNonce (source.nextNonce (source.nextId s).2).2).2).2

/-- The elements that stand for a shape, and the state in which they leave the id source. -/
inductive IsBlock (source : IdSource σ) (labels : ClassLabels) (shape : Element α) (s : σ) :
    List (Element α) → σ → Prop
  /-- Without a text the shape stands alone. -/
  | bare {id : String} {s₁ : σ} (named : IsNamed source shape s id s₁)
      (no_text : ¬ HasText labels shape id) :
      IsBlock source labels shape s [{ shape with id := id, label := none }] s₁
  /-- With a text the shape lists it behind what is attached already, and is followed by it. -/
  | labeled {id : String} {s₁ : σ} {text : Element α} {content : TextContent α}
      (named : IsNamed source shape s id s₁)
      (has_text : HasText labels shape id)
      (text_id : text.id = (source.nextId s₁).1)
      (text_kind : text.kind = .text content)
      (text_label : text.label = none)
      (container : content.containerId = some id)
      (resolves : Resolves labels shape id content.text)
      (original : content.originalText = content.text) :
      IsBlock source labels shape s
        [{ shape with
            id := id
            label := none
            boundElements := some (shape.bound ++ [⟨text.id, .text⟩]) }, text]
        (afterText source s₁)

/-- The blocks of the shapes of a list, where each block starts in the state of the id source in
which the one before it ended. -/
inductive Blocks (source : IdSource σ) (labels : ClassLabels) :
    List (Element α) → σ → List (List (Element α)) → σ → Prop
  | nil (s : σ) : Blocks source labels [] s [] s
  | cons {shape : Element α} {shapes : List (Element α)} {s s₁ s₂ : σ}
      {block : List (Element α)} {blocks : List (List (Element α))} :
      IsBlock source labels shape s block s₁ → Blocks source labels shapes s₁ blocks s₂ →
      Blocks source labels (shape :: shapes) s (block :: blocks) s₂

variable {source : IdSource σ} {labels : ClassLabels}

/-- Naming a shape changes its id alone. -/
theorem named_eq (source : IdSource σ) (shape : Element α) (s : σ) :
    ∃ id, named source shape s = ({ shape with id := id }, (named source shape s).2) ∧
      IsNamed source shape s id (named source shape s).2 := by
  unfold named
  by_cases h : shape.id = ""
  · exact ⟨(source.nextId s).1, by simp [h], by simpa [h] using IsNamed.drawn h⟩
  · exact ⟨shape.id, by simp [h], by simpa [h] using IsNamed.own h⟩

/-- What a shape becomes is a block. -/
theorem isBlock_block [Scalar α] (source : IdSource σ) (measurer : Measurer α)
    (labels : ClassLabels) (shape : Element α) (s : σ) :
    IsBlock source labels shape s (block source measurer labels shape s).1
      (block source measurer labels shape s).2 := by
  obtain ⟨id, hnamed, hid⟩ := named_eq source shape s
  unfold block
  rw [hnamed]
  dsimp only
  have hiff := isSome_text?_iff labels { shape with id := id }
  cases htext : text? labels { shape with id := id } with
  | none =>
    rw [htext] at hiff
    exact .bare hid fun h => Bool.noConfusion (hiff.mpr h)
  | some text =>
    rw [htext] at hiff
    exact .labeled hid (hiff.mp rfl) rfl rfl rfl rfl (resolves_of_text?_eq_some htext) rfl

/-- A block has at least one element. -/
theorem IsBlock.ne_nil {shape : Element α} {s s' : σ} {block : List (Element α)}
    (h : IsBlock source labels shape s block s') : block ≠ [] := by
  cases h with
  | bare _ _ => exact List.cons_ne_nil _ _
  | labeled _ _ _ _ _ _ _ _ => exact List.cons_ne_nil _ _

/-- No element of a block carries a label. -/
theorem IsBlock.label_eq_none {shape : Element α} {s s' : σ} {block : List (Element α)}
    (h : IsBlock source labels shape s block s') : ∀ e ∈ block, e.label = none := by
  intro e he
  cases h with
  | bare _ _ =>
    rw [List.mem_singleton.mp he]
  | labeled _ _ _ _ hlabel _ _ _ =>
    rcases List.mem_pair.mp he with rfl | rfl
    · rfl
    · exact hlabel

/-- Materialization replaces every shape by its block. -/
theorem exists_blocks [Scalar α] (source : IdSource σ) (measurer : Measurer α)
    (labels : ClassLabels) (shapes : List (Element α)) (s : σ) :
    ∃ blocks, (materialize source measurer labels shapes s).1 = blocks.flatten ∧
      Blocks source labels shapes s blocks (materialize source measurer labels shapes s).2 := by
  induction shapes generalizing s with
  | nil => exact ⟨[], rfl, .nil s⟩
  | cons shape shapes ih =>
    obtain ⟨blocks, hflat, hblocks⟩ := ih (block source measurer labels shape s).2
    refine ⟨(block source measurer labels shape s).1 :: blocks, ?_,
      .cons (isBlock_block source measurer labels shape s) hblocks⟩
    rw [List.flatten_cons, ← hflat]
    rfl

/-- No element of the blocks of a list carries a label. -/
theorem Blocks.label_eq_none {shapes : List (Element α)} {s s' : σ}
    {blocks : List (List (Element α))} (h : Blocks source labels shapes s blocks s') :
    ∀ e ∈ blocks.flatten, e.label = none := by
  induction h with
  | nil s => simp
  | cons hblock _ ih =>
    intro e he
    rcases List.mem_append.mp (List.flatten_cons ▸ he) with h | h
    · exact hblock.label_eq_none e h
    · exact ih e h

end Label

end DiagramScene
