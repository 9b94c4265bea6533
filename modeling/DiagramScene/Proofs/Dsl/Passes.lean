import Mathlib
import DiagramScene.Dsl.Compile
import DiagramScene.Proofs.Keyed
import DiagramScene.Proofs.Reports

/-!
# The two passes of compiling

`Item.compile` makes the element of an item, whatever its type.  The first pass does so for all
items but the arrows, one after the other (`FirstRun`), and notes the boxes of the elements.  The
second pass does so for the arrows, and no box is noted any more.

So each element of a document is made of its item, and an arrow is made in view of the boxes of all
the elements that are no arrows, wherever these stand (`Document.forall₂_madeOf`).
-/

namespace DiagramScene.Dsl

variable {α : Type}

/-- The elements of a document that are no arrows. -/
def targetElements (items : List (Item α)) (es : List (Element α)) : List (Element α) :=
  ((items.zip es).filter (!·.1.isArrow)).map (·.2)

/-- Taking an id notes no box. -/
theorem boxes_idFor (p : Progress α) (common : Common α) (kind : String) :
    (p.idFor common kind).2.boxes = p.boxes := by
  unfold Progress.idFor
  cases common.id with
  | none => rfl
  | some id => rfl

/-- An id that is stated is taken. -/
theorem idFor_eq {p : Progress α} {common : Common α} {id : String} (h : common.id = some id)
    (kind : String) : (p.idFor common kind).1 = id := by
  rw [Progress.idFor, h]

variable [Scalar α]

/-- The box of an element. -/
def boxOf (e : Element α) : Box α := Box.of e.x e.y e.width e.height

/-- The boxes of elements, by their ids. -/
def boxesOf (es : List (Element α)) : Keyed (Box α) :=
  Keyed.ofList (es.map fun e => (e.id, boxOf e))

/-- What compiling has to know of a document. -/
def Document.settings (doc : Document α) : Settings α :=
  ⟨doc.gridDistance, doc.styles, doc.fitText⟩

/-! ### Items -/

/-- The style attributes of an element. -/
def styleOf (e : Element α) : Style α where
  strokeColor := e.strokeColor
  backgroundColor := e.backgroundColor
  fillStyle := e.fillStyle
  strokeWidth := e.strokeWidth
  strokeStyle := e.strokeStyle
  roughness := e.roughness
  opacity := e.opacity

/-- The width and the height that a text gets but for the grid: those that it states where they
count, or else those that it needs. -/
def textExtent (settings : Settings α) (spec : TextSpec α) : α × α :=
  let needed := textSize spec.text spec.fontSize spec.lineHeight spec.padding
  (if settings.fitText then needed.1 else spec.w.getD needed.1,
    if settings.fitText then needed.2 else spec.h.getD needed.2)

/-- What is kept of an item: its element gets the id of the item and a stamp, and the box of an
element that is no arrow is noted under the id. -/
structure Booked (item : Item α) (p : Progress α) (made : Element α × Progress α) : Prop where
  stamped : ∃ bare : Element α, bare.id = (p.idFor item.common item.typeName).1 ∧
    made.1 = ((p.idFor item.common item.typeName).2.stamp bare).1 ∧
    made.2.counter = ((p.idFor item.common item.typeName).2.stamp bare).2.counter
  boxes : item.isArrow = false → made.2.boxes = p.boxes.put made.1.id (boxOf made.1)
  boxes_arrow : item.isArrow = true → made.2.boxes = p.boxes

/-- What the element of a shape looks like. -/
structure OfShape (settings : Settings α) (kind : ShapeKind) (spec : ShapeSpec α)
    (e : Element α) : Prop where
  kind : e.kind = kind.element
  x : e.x = snap settings.grid spec.x
  y : e.y = snap settings.grid spec.y
  width : e.width = snap settings.grid spec.w
  height : e.height = snap settings.grid spec.h
  style : Style.of settings.presets spec.common = .ok (styleOf e)

/-- What the element of a text looks like. -/
structure OfText (settings : Settings α) (spec : TextSpec α) (e : Element α) : Prop where
  isText : e.isText = true
  x : e.x = snap settings.grid spec.x
  y : e.y = snap settings.grid spec.y
  width : e.width = snap settings.grid (textExtent settings spec).1
  height : e.height = snap settings.grid (textExtent settings spec).2
  style : styleOf e = Style.textDefault

/-- What the element of an arrow between two points looks like. -/
structure OfArrow (settings : Settings α) (spec : ArrowSpec α) (start finish : Point α)
    (e : Element α) : Prop where
  kind : e.kind = .arrow (.arrow [(0.0, 0.0), (e.width, e.height)])
  x : e.x = snap settings.grid start.x
  y : e.y = snap settings.grid start.y
  width : e.width = snap settings.grid finish.x - e.x
  height : e.height = snap settings.grid finish.y - e.y
  style : Style.of settings.presets spec.common = .ok (styleOf e)

/-- The ends of an arrow depend on what is found under their ids. -/
theorem endpoint_congr {p q : Progress α}
    (h : ∀ key, Keyed.get? p.boxes key = Keyed.get? q.boxes key) (e : Endpoint) :
    endpoint p e = endpoint q e := by
  rw [endpoint, endpoint, h]

/-- The point that an end of an arrow is attached to belongs to a box that is noted. -/
theorem endpoint_eq_ok {p : Progress α} {e : Endpoint} {point : Point α}
    (h : endpoint p e = .ok point) :
    ∃ box, p.boxes.get? e.reference = some box ∧ point = anchor box e.side := by
  unfold endpoint at h
  cases hbox : p.boxes.get? e.reference with
  | none =>
    rw [hbox] at h
    cases h
  | some box =>
    rw [hbox] at h
    exact ⟨box, rfl, (Except.ok.inj h).symm⟩

section Made

variable {settings : Settings α} {p : Progress α} {made : Element α × Progress α}

/-- What is made of a shape. -/
theorem compileShape_eq_ok {kind : ShapeKind} {spec : ShapeSpec α}
    (h : compileShape settings kind spec p = .ok made) :
    OfShape settings kind spec made.1 ∧ Booked (.shape kind spec) p made := by
  obtain ⟨style, hstyle, h⟩ := bind_eq_ok_iff.mp h
  obtain rfl := Except.ok.inj h
  constructor
  · exact ⟨rfl, rfl, rfl, rfl, rfl, hstyle⟩
  · refine ⟨⟨_, rfl, rfl, rfl⟩, fun _ => ?_, fun harrow => Bool.noConfusion harrow⟩
    exact congrArg (Keyed.put · _ _) (boxes_idFor p spec.common kind.name)

/-- What is made of a text. -/
theorem compileText_eq_ok {spec : TextSpec α} (h : compileText settings spec p = .ok made) :
    OfText settings spec made.1 ∧ Booked (.text spec) p made := by
  unfold compileText at h
  dsimp only at h
  split at h
  · cases h
  · obtain rfl := Except.ok.inj h
    constructor
    · exact ⟨rfl, rfl, rfl, rfl, rfl, rfl⟩
    · refine ⟨⟨_, rfl, rfl, rfl⟩, fun _ => ?_, fun harrow => Bool.noConfusion harrow⟩
      exact congrArg (Keyed.put · _ _) (boxes_idFor p spec.common "text")

/-- What is made of an arrow: its ends are attached to boxes that are noted. -/
theorem compileArrow_eq_ok {spec : ArrowSpec α} (h : compileArrow settings spec p = .ok made) :
    (∃ box box', p.boxes.get? spec.start.reference = some box ∧
      p.boxes.get? spec.finish.reference = some box' ∧
      OfArrow settings spec (anchor box spec.start.side) (anchor box' spec.finish.side) made.1) ∧
      Booked (.arrow spec) p made := by
  obtain ⟨start, hstart, h⟩ := bind_eq_ok_iff.mp h
  obtain ⟨finish, hfinish, h⟩ := bind_eq_ok_iff.mp h
  obtain ⟨style, hstyle, h⟩ := bind_eq_ok_iff.mp h
  have hsame (e : Endpoint) : endpoint (p.idFor spec.common "arrow").2 e = endpoint p e :=
    endpoint_congr (fun key => by rw [boxes_idFor]) e
  obtain ⟨box, hbox, rfl⟩ := endpoint_eq_ok ((hsame spec.start).symm.trans hstart)
  obtain ⟨box', hbox', rfl⟩ := endpoint_eq_ok ((hsame spec.finish).symm.trans hfinish)
  obtain rfl := Except.ok.inj h
  constructor
  · exact ⟨box, box', hbox, hbox', rfl, rfl, rfl, rfl, rfl, hstyle⟩
  · refine ⟨⟨_, rfl, rfl, rfl⟩, fun harrow => Bool.noConfusion harrow, fun _ => ?_⟩
    exact boxes_idFor p spec.common "arrow"

end Made

namespace Item

/-- Makes the element of an item, whatever its type. -/
def compile (settings : Settings α) (item : Item α) (p : Progress α) :
    Except CompileError (Element α × Progress α) :=
  match item with
  | shape kind spec => compileShape settings kind spec p
  | text spec => compileText settings spec p
  | arrow spec => compileArrow settings spec p

variable {settings : Settings α} {item : Item α} {p : Progress α}
  {made : Element α × Progress α}

/-- What is kept of an item, whatever its type. -/
theorem booked_compile (h : item.compile settings p = .ok made) : Booked item p made := by
  cases item with
  | shape kind spec => exact (compileShape_eq_ok h).2
  | text spec => exact (compileText_eq_ok h).2
  | arrow spec => exact (compileArrow_eq_ok h).2

/-- The element of an item has the id that the item gets. -/
theorem id_compile (h : item.compile settings p = .ok made) :
    made.1.id = (p.idFor item.common item.typeName).1 := by
  obtain ⟨bare, hid, hmade, -⟩ := (booked_compile h).stamped
  rw [hmade]
  exact hid

/-- No box is noted for an arrow. -/
theorem boxes_compileArrow {spec : ArrowSpec α} (h : compileArrow settings spec p = .ok made) :
    made.2.boxes = p.boxes :=
  (compileArrow_eq_ok h).2.boxes_arrow rfl

end Item

/-- An element is made of an item at some point of compiling, and in view of the given boxes if the
item is an arrow. -/
def MadeOf (settings : Settings α) (boxes : Keyed (Box α)) (item : Item α) (e : Element α) : Prop :=
  ∃ p p', item.compile settings p = .ok (e, p') ∧ (item.isArrow = true → p.boxes = boxes)

/-! ### Passes -/

/-- The first pass goes on behind an item other than an arrow. -/
theorem compileShapes_target (settings : Settings α) {item : Item α} (h : item.isArrow = false)
    (items : List (Item α)) (p : Progress α) :
    compileShapes settings (item :: items) p =
      item.compile settings p >>= fun first =>
        compileShapes settings items first.2 >>= fun rest =>
          .ok ((item, some first.1) :: rest.1, rest.2) := by
  cases item with
  | shape kind spec =>
    rw [compileShapes, Item.compile]
    cases compileShape settings kind spec p with
    | error err => rfl
    | ok first => rfl
  | text spec =>
    rw [compileShapes, Item.compile]
    cases compileText settings spec p with
    | error err => rfl
    | ok first => rfl
  | arrow spec => exact Bool.noConfusion h

/-- The first pass goes on behind an arrow. -/
theorem compileShapes_arrow (settings : Settings α) (spec : ArrowSpec α) (items : List (Item α))
    (p : Progress α) :
    compileShapes settings (.arrow spec :: items) p =
      compileShapes settings items p >>= fun rest =>
        .ok ((.arrow spec, none) :: rest.1, rest.2) := rfl

/-- The second pass goes on behind an element that was made before. -/
theorem compileArrows_target (settings : Settings α) (item : Item α) (e : Element α)
    (made : List (Item α × Option (Element α))) (p : Progress α) :
    compileArrows settings ((item, some e) :: made) p =
      compileArrows settings made p >>= fun es => .ok (e :: es) := by
  cases item <;> rfl

/-- A run of the first pass: the elements of all items but the arrows are made one after the other,
and the arrows wait. -/
inductive FirstRun (settings : Settings α) : List (Item α) →
    List (Item α × Option (Element α)) → Progress α → Progress α → Prop
  | nil (p : Progress α) : FirstRun settings [] [] p p
  | target {item : Item α} {items : List (Item α)} {e : Element α}
    {made : List (Item α × Option (Element α))} {p p₁ p₂ : Progress α}
    (hitem : item.isArrow = false) (first : item.compile settings p = .ok (e, p₁))
    (rest : FirstRun settings items made p₁ p₂) :
    FirstRun settings (item :: items) ((item, some e) :: made) p p₂
  | arrow (spec : ArrowSpec α) {items : List (Item α)}
    {made : List (Item α × Option (Element α))} {p p' : Progress α}
    (rest : FirstRun settings items made p p') :
    FirstRun settings (.arrow spec :: items) ((.arrow spec, none) :: made) p p'

/-- The first pass is such a run. -/
theorem firstRun_compileShapes {settings : Settings α} {items : List (Item α)} {p : Progress α}
    {made : List (Item α × Option (Element α)) × Progress α}
    (h : compileShapes settings items p = .ok made) :
    FirstRun settings items made.1 p made.2 := by
  induction items generalizing p made with
  | nil =>
    obtain rfl := Except.ok.inj h
    exact .nil p
  | cons item items ih =>
    have htarget (hitem : item.isArrow = false) :
        FirstRun settings (item :: items) made.1 p made.2 := by
      rw [compileShapes_target settings hitem] at h
      obtain ⟨first, hfirst, h⟩ := bind_eq_ok_iff.mp h
      obtain ⟨rest, hrest, h⟩ := bind_eq_ok_iff.mp h
      obtain rfl := Except.ok.inj h
      exact .target hitem hfirst (ih hrest)
    cases item with
    | shape kind spec => exact htarget rfl
    | text spec => exact htarget rfl
    | arrow spec =>
      rw [compileShapes_arrow] at h
      obtain ⟨rest, hrest, h⟩ := bind_eq_ok_iff.mp h
      obtain rfl := Except.ok.inj h
      exact .arrow spec (ih hrest)

namespace FirstRun

variable {settings : Settings α} {items : List (Item α)}
  {made : List (Item α × Option (Element α))} {p p' : Progress α}

/-- The boxes of the elements are put among those that were noted before. -/
theorem boxes (h : FirstRun settings items made p p') :
    p'.boxes = p.boxes.putAll ((made.filterMap (·.2)).map fun e => (e.id, boxOf e)) := by
  induction h with
  | nil p => rfl
  | @target item items e made p p₁ p₂ hitem first _ ih =>
    have hfirst : p₁.boxes = p.boxes.put e.id (boxOf e) := (Item.booked_compile first).boxes hitem
    rw [ih, hfirst]
    rfl
  | arrow spec _ ih => exact ih

/-- The second pass leaves the elements of the first one where they are, and makes the arrows in
view of the boxes that are noted. -/
theorem forall₂_madeOf (h : FirstRun settings items made p p') {q : Progress α}
    {es : List (Element α)} (hes : compileArrows settings made q = .ok es) :
    List.Forall₂ (MadeOf settings q.boxes) items es ∧
      targetElements items es = made.filterMap (·.2) := by
  induction h generalizing q es with
  | nil p =>
    obtain rfl := Except.ok.inj hes
    exact ⟨.nil, rfl⟩
  | @target item items e made p p₁ p₂ hitem first _ ih =>
    rw [compileArrows_target] at hes
    obtain ⟨rest, hrest, hes⟩ := bind_eq_ok_iff.mp hes
    obtain rfl := Except.ok.inj hes
    obtain ⟨hmade, htargets⟩ := ih hrest
    have hfirst : MadeOf settings q.boxes item e :=
      ⟨p, p₁, first, fun harrow => nomatch hitem.symm.trans harrow⟩
    have hcons : targetElements (item :: items) (e :: rest) = e :: targetElements items rest := by
      simp [targetElements, hitem]
    exact ⟨.cons hfirst hmade, by rw [hcons, htargets]; rfl⟩
  | arrow spec _ ih =>
    obtain ⟨first, hfirst, hes⟩ := bind_eq_ok_iff.mp hes
    obtain ⟨rest, hrest, hes⟩ := bind_eq_ok_iff.mp hes
    obtain rfl := Except.ok.inj hes
    obtain ⟨hmade, htargets⟩ := ih hrest
    rw [Item.boxes_compileArrow hfirst] at hmade
    exact ⟨.cons ⟨q, first.2, hfirst, fun _ => rfl⟩ hmade, htargets⟩

end FirstRun

/-! ### Documents -/

/-- Each element of a document is made of its item; an arrow is made in view of the boxes of all
elements that are no arrows. -/
theorem Document.forall₂_madeOf {doc : Document α} {start : Int64} {es : List (Element α)}
    (h : doc.compile start = .ok es) :
    List.Forall₂ (MadeOf doc.settings (boxesOf (targetElements doc.items es))) doc.items es := by
  unfold Document.compile at h
  split at h
  · cases h
  · obtain ⟨made, hshapes, harrows⟩ := bind_eq_ok_iff.mp h
    have hrun : FirstRun doc.settings doc.items made.1 ⟨.ofStart start, []⟩ made.2 :=
      firstRun_compileShapes hshapes
    obtain ⟨hmade, htargets⟩ := hrun.forall₂_madeOf harrows
    have hboxes : made.2.boxes = boxesOf (targetElements doc.items es) := by
      rw [hrun.boxes, htargets]
      rfl
    rwa [hboxes] at hmade

end DiagramScene.Dsl
