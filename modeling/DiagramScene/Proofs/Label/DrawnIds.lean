import Mathlib
import DiagramScene.Proofs.Label.Blocks

/-!
# The ids that a run draws

An id source hands out ids from a state of any type, so the ids of a run cannot be read off its
states.  `IdSource.recording` draws from the same source and keeps a list of the ids beside the
state.  Materialization does the same with both sources (`materialize_recording`), so `drawnIds`
is the list of the ids that it draws from the source itself.  A single shape draws at most two ids,
`Label.drawnFor`, and the list is put together from those (`drawnIds_cons`).
-/

namespace DiagramScene

variable {α σ : Type}

/-- The source that keeps the list of the ids that have been drawn beside its state. -/
def IdSource.recording (source : IdSource σ) : IdSource (σ × List String) where
  nextId s :=
    let (id, s') := source.nextId s.1
    (id, s', s.2 ++ [id])
  nextNonce s :=
    let (nonce, s') := source.nextNonce s.1
    (nonce, s', s.2)
  now s :=
    let (time, s') := source.now s.1
    (time, s', s.2)

namespace Label

/-- Naming a shape does the same with a source that keeps a list. -/
theorem named_recording (source : IdSource σ) (shape : Element α) (s : σ) (ids : List String) :
    (named source.recording shape (s, ids)).1 = (named source shape s).1 ∧
      (named source.recording shape (s, ids)).2.1 = (named source shape s).2 := by
  unfold named
  cases shape.id.isEmpty with
  | true => exact ⟨rfl, rfl⟩
  | false => exact ⟨rfl, rfl⟩

/-- A shape becomes the same block with a source that keeps a list. -/
theorem block_recording [Scalar α] (source : IdSource σ) (measurer : Measurer α)
    (labels : ClassLabels) (shape : Element α) (s : σ) (ids : List String) :
    (block source.recording measurer labels shape (s, ids)).1 =
        (block source measurer labels shape s).1 ∧
      (block source.recording measurer labels shape (s, ids)).2.1 =
        (block source measurer labels shape s).2 := by
  obtain ⟨hshape, hstate⟩ := named_recording source shape s ids
  unfold block
  dsimp only
  rw [hshape, ← hstate]
  cases text? labels (named source shape s).1 with
  | none => exact ⟨rfl, rfl⟩
  | some text => exact ⟨rfl, rfl⟩

end Label

/-- Materialization does the same with a source that keeps a list. -/
theorem materialize_recording [Scalar α] (source : IdSource σ) (measurer : Measurer α)
    (labels : ClassLabels) (shapes : List (Element α)) (s : σ) (ids : List String) :
    (materialize source.recording measurer labels shapes (s, ids)).1 =
        (materialize source measurer labels shapes s).1 ∧
      (materialize source.recording measurer labels shapes (s, ids)).2.1 =
        (materialize source measurer labels shapes s).2 := by
  induction shapes generalizing s ids with
  | nil => exact ⟨rfl, rfl⟩
  | cons shape shapes ih =>
    obtain ⟨hblock, hstate⟩ := Label.block_recording source measurer labels shape s ids
    obtain ⟨hrest, hend⟩ := ih (Label.block source measurer labels shape s).2
      (Label.block source.recording measurer labels shape (s, ids)).2.2
    unfold materialize
    dsimp only
    rw [hblock, ← hrest, ← hend, ← hstate]
    exact ⟨rfl, rfl⟩

/-- The ids that materialization draws from a source in a state, in their order. -/
def drawnIds [Scalar α] (source : IdSource σ) (measurer : Measurer α) (labels : ClassLabels)
    (shapes : List (Element α)) (s : σ) : List String :=
  (materialize source.recording measurer labels shapes (s, [])).2.2

/-! ### The ids of one shape after the other -/

namespace Label

/-- The ids that a shape draws: one for itself if it has none, and one for its text. -/
def drawnFor (source : IdSource σ) (labels : ClassLabels) (shape : Element α) (s : σ) :
    List String :=
  (if shape.id.isEmpty then [(source.nextId s).1] else []) ++
    if (text? labels (named source shape s).1).isSome then
      [(source.nextId (named source shape s).2).1]
    else []

/-- A source that keeps a list has the ids that a shape draws behind the others. -/
theorem recorded_block [Scalar α] (source : IdSource σ) (measurer : Measurer α)
    (labels : ClassLabels) (shape : Element α) (s : σ) (ids : List String) :
    (block source.recording measurer labels shape (s, ids)).2.2 =
      ids ++ drawnFor source labels shape s := by
  obtain ⟨hshape, hstate⟩ := named_recording source shape s ids
  have hlist : (named source.recording shape (s, ids)).2.2 =
      ids ++ if shape.id.isEmpty then [(source.nextId s).1] else [] := by
    unfold named
    cases shape.id.isEmpty with
    | true => rfl
    | false => exact (List.append_nil ids).symm
  unfold block drawnFor
  dsimp only
  rw [hshape, ← List.append_assoc, ← hlist, ← hstate]
  cases text? labels (named source shape s).1 with
  | none => exact (List.append_nil _).symm
  | some text => rfl

end Label

/-- A source that keeps a list has the ids of the first shape when it comes to the others. -/
theorem recorded_cons [Scalar α] (source : IdSource σ) (measurer : Measurer α) (labels : ClassLabels)
    (shape : Element α) (shapes : List (Element α)) (s : σ) (ids : List String) :
    (materialize source.recording measurer labels (shape :: shapes) (s, ids)).2.2 =
      (materialize source.recording measurer labels shapes
        ((Label.block source measurer labels shape s).2,
          ids ++ Label.drawnFor source labels shape s)).2.2 := by
  rw [← Label.recorded_block source measurer labels shape s ids,
    ← (Label.block_recording source measurer labels shape s ids).2]
  rfl

/-- A source that keeps a list has the ids that are drawn behind the others. -/
theorem recorded_materialize [Scalar α] (source : IdSource σ) (measurer : Measurer α)
    (labels : ClassLabels) (shapes : List (Element α)) (s : σ) (ids : List String) :
    (materialize source.recording measurer labels shapes (s, ids)).2.2 =
      ids ++ drawnIds source measurer labels shapes s := by
  induction shapes generalizing s ids with
  | nil => exact (List.append_nil ids).symm
  | cons shape shapes ih =>
    rw [drawnIds, recorded_cons, recorded_cons, ih, ih, List.nil_append, List.append_assoc]

/-- The ids of a list of shapes are those of one shape after the other. -/
theorem drawnIds_cons [Scalar α] (source : IdSource σ) (measurer : Measurer α) (labels : ClassLabels)
    (shape : Element α) (shapes : List (Element α)) (s : σ) :
    drawnIds source measurer labels (shape :: shapes) s =
      Label.drawnFor source labels shape s ++
        drawnIds source measurer labels shapes (Label.block source measurer labels shape s).2 := by
  rw [drawnIds, recorded_cons, recorded_materialize, List.nil_append]

end DiagramScene
