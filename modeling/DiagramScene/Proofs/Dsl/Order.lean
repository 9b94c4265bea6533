import Mathlib
import DiagramScene.Proofs.Dsl.Numbering
import DiagramScene.Proofs.Keyed
import DiagramScene.Proofs.Label.Renaming

/-!
# The order of the items of a document

If all items state their ids, the counter is used for stamps only.  So an item becomes the same
element wherever it stands, but for its seed, its nonce and its time: a shape or a text on its own
and an arrow in view of the boxes that are noted (`Item.element_eq_ok`).  Boxes are looked up by
their ids, and as these are distinct, the order in which the boxes were noted does not count
(`Document.get?_boxes_inOrder`).

An order is a list of places.  The main statement is `compile_inOrder`: the items of a document in
another order become the same elements in that order.
-/

namespace DiagramScene.Dsl

open scoped List

variable {α : Type}

/-! ### Orders -/

section Reorder

variable {β γ : Type}

/-- The values of a list at the places of an order. -/
def reorder (order : List Nat) (xs : List β) : List β := order.filterMap (xs[·]?)

/-- A function on the values leaves their order alone. -/
theorem map_reorder (f : β → γ) (order : List Nat) (xs : List β) :
    (reorder order xs).map f = reorder order (xs.map f) := by
  unfold reorder
  rw [List.map_filterMap]
  simp only [List.getElem?_map]

/-- The order in which the values stand. -/
theorem reorder_range (xs : List β) : reorder (List.range xs.length) xs = xs := by
  induction xs with
  | nil => rfl
  | cons x xs ih =>
    have hrest : ((List.range xs.length).map Nat.succ).filterMap ((x :: xs)[·]?) = xs := by
      rw [List.filterMap_map]
      exact ih
    rw [reorder, List.length_cons, List.range_succ_eq_map, List.filterMap_cons, hrest]
    rfl

/-- Each place once makes the same values in another order. -/
theorem reorder_perm {order : List Nat} {xs : List β} (h : order ~ List.range xs.length) :
    reorder order xs ~ xs := by
  have hperm := h.filterMap (xs[·]?)
  have hrange := reorder_range xs
  unfold reorder at hrange
  rwa [hrange] at hperm

/-- A value stands where the order has its place. -/
theorem getElem?_reorder {order : List Nat} {xs : List β} (h : ∀ place ∈ order, place < xs.length)
    (i : Nat) : (reorder order xs)[i]? = order[i]?.bind (xs[·]?) := by
  induction order generalizing i with
  | nil => rfl
  | cons place order ih =>
    obtain ⟨hplace, hrest⟩ := List.forall_mem_cons.mp h
    have hvalue : xs[place]? = some xs[place] := List.getElem?_eq_getElem hplace
    rw [reorder, List.filterMap_cons, hvalue]
    cases i with
    | zero => exact hvalue.symm
    | succ i => exact ih hrest i

end Reorder

/-! ### Stated ids -/

/-- A stated id comes before those of the items behind. -/
theorem statedIds_cons {item : Item α} {id : String} (hid : item.common.id = some id)
    (items : List (Item α)) : statedIds (item :: items) = id :: statedIds items := by
  rw [statedIds, List.filterMap_cons, hid]
  rfl

/-- If all items state their ids, arrows refer to the stated ids of the other items. -/
theorem targetIdsFrom_eq_statedIds {items : List (Item α)}
    (hstated : ∀ item ∈ items, item.common.id.isSome) (n : Nat) :
    targetIdsFrom n items = statedIds (items.filter (!·.isArrow)) := by
  induction items generalizing n with
  | nil => rfl
  | cons item items ih =>
    obtain ⟨hitem, hitems⟩ := List.forall_mem_cons.mp hstated
    obtain ⟨id, hid⟩ := Option.isSome_iff_exists.mp hitem
    unfold targetIdsFrom
    cases harrow : item.isArrow with
    | true =>
      rw [if_pos rfl, List.filter_cons_of_neg (by simp [harrow])]
      exact ih hitems n
    | false =>
      rw [if_neg Bool.false_ne_true, List.filter_cons_of_pos (by simp [harrow]),
        statedIds_cons hid, hid]
      exact congrArg (id :: ·) (ih hitems (n + 1))

/-- What is wrong with an arrow depends on which ids there are. -/
theorem arrowProblems_congr (presets : Keyed (StyleOverrides α)) {ids ids' : List String}
    (h : ∀ id, id ∈ ids ↔ id ∈ ids') (item : Item α) :
    arrowProblems presets ids item = arrowProblems presets ids' item := by
  cases item with
  | shape kind spec => rfl
  | text spec => rfl
  | arrow spec => simp only [arrowProblems, missingReference, h]

/-! ### Items -/

variable [Scalar α]

namespace Item

/-- The element that an item becomes between boxes, without its stamp. -/
def element (settings : Settings α) (boxes : Keyed (Box α)) (item : Item α) :
    Except CompileError (Element α) :=
  (item.compile settings ⟨.ofStart 0, boxes⟩).map (·.1.unstamped)

/-- What is noted for an item that states its id. -/
def notedBox? (settings : Settings α) (item : Item α) : Option (String × Box α) :=
  if item.isArrow then none
  else item.common.id.bind fun id =>
    (item.element settings []).toOption.map fun e => (id, Box.of e.x e.y e.width e.height)

variable {settings : Settings α} {item : Item α} {id : String}

/-- An item that states its id becomes the same element at every point of compiling, but for its
stamp; an arrow does so if the same boxes are found. -/
theorem map_unstamped_compile (hid : item.common.id = some id) (p q : Progress α)
    (h : item.isArrow = true → ∀ key, Keyed.get? p.boxes key = Keyed.get? q.boxes key) :
    (item.compile settings p).map (·.1.unstamped) =
      (item.compile settings q).map (·.1.unstamped) := by
  cases item with
  | shape kind spec =>
    replace hid : spec.common.id = some id := hid
    simp only [compile, compileShape, Progress.idFor, hid]
    cases Style.of settings.presets spec.common with
    | error err => rfl
    | ok style => rfl
  | text spec =>
    replace hid : spec.common.id = some id := hid
    simp only [compile, compileText, Progress.idFor, hid]
    split
    · rfl
    · rfl
  | arrow spec =>
    replace hid : spec.common.id = some id := hid
    simp only [compile, compileArrow, Progress.idFor, hid, endpoint_congr (h rfl)]
    cases endpoint q spec.start with
    | error err => rfl
    | ok start =>
      cases endpoint q spec.finish with
      | error err => rfl
      | ok finish =>
        cases Style.of settings.presets spec.common with
        | error err => rfl
        | ok style => rfl

/-- The element that an item becomes at some point of compiling. -/
theorem element_eq_ok (hid : item.common.id = some id) {p : Progress α}
    {made : Element α × Progress α} (h : item.compile settings p = .ok made)
    {boxes : Keyed (Box α)} (hboxes : item.isArrow = true → boxes = p.boxes) :
    item.element settings boxes = .ok made.1.unstamped := by
  have hsame : item.element settings boxes = (item.compile settings p).map (·.1.unstamped) :=
    map_unstamped_compile hid _ p fun harrow key => by rw [hboxes harrow]
  rw [hsame, h]
  rfl

/-- The element of an item depends on what is found among the boxes. -/
theorem element_congr (hid : item.common.id = some id) {boxes boxes' : Keyed (Box α)}
    (h : ∀ key, Keyed.get? boxes key = Keyed.get? boxes' key) :
    item.element settings boxes = item.element settings boxes' :=
  map_unstamped_compile hid _ _ fun _ => h

/-- What is noted for an item of which an element was made. -/
theorem notedBox?_eq_some (hid : item.common.id = some id) (hitem : item.isArrow = false)
    {p : Progress α} {made : Element α × Progress α} (h : item.compile settings p = .ok made) :
    item.notedBox? settings = some (id, Box.of made.1.x made.1.y made.1.width made.1.height) := by
  have helement : item.element settings [] = .ok made.1.unstamped :=
    element_eq_ok hid h fun harrow => nomatch hitem.symm.trans harrow
  rw [notedBox?, hitem, hid, helement]
  rfl

end Item

/-! ### Passes -/

/-- What the first pass makes of items that state their ids. -/
structure FirstMade (settings : Settings α) (items : List (Item α)) (p : Progress α)
    (made : List (Item α × Option (Element α)) × Progress α) : Prop where
  map_fst : made.1.map (·.1) = items
  /-- The elements are made without a look at the boxes. -/
  elements : ∀ m ∈ made.1, ∀ e, m.2 = some e →
    ∀ boxes, m.1.element settings boxes = .ok e.unstamped
  /-- The arrows wait. -/
  arrows : ∀ m ∈ made.1, m.2 = none → m.1.isArrow = true
  boxes : made.2.boxes = p.boxes.putAll (items.filterMap (Item.notedBox? settings))

namespace FirstMade

variable {settings : Settings α} {items : List (Item α)} {p : Progress α}

/-- An element comes before what is made of the items behind. -/
theorem target {item : Item α} {id : String} (hid : item.common.id = some id)
    (hitem : item.isArrow = false) {first : Element α × Progress α}
    (hfirst : item.compile settings p = .ok first)
    {rest : List (Item α × Option (Element α)) × Progress α}
    (h : FirstMade settings items first.2 rest) :
    FirstMade settings (item :: items) p ((item, some first.1) :: rest.1, rest.2) where
  map_fst := congrArg (item :: ·) h.map_fst
  elements := by
    refine List.forall_mem_cons.mpr ⟨?_, h.elements⟩
    intro e he boxes
    obtain rfl := Option.some.inj he
    exact Item.element_eq_ok hid hfirst fun harrow => nomatch hitem.symm.trans harrow
  arrows := List.forall_mem_cons.mpr ⟨fun he => (nomatch he), h.arrows⟩
  boxes := by
    rw [h.boxes, (Item.booked_compile hfirst).boxes hitem, Item.id_compile hfirst, idFor_eq hid,
      List.filterMap_cons_some (Item.notedBox?_eq_some hid hitem hfirst)]
    rfl

/-- An arrow waits before what is made of the items behind. -/
theorem arrow (spec : ArrowSpec α) {rest : List (Item α × Option (Element α)) × Progress α}
    (h : FirstMade settings items p rest) :
    FirstMade settings (.arrow spec :: items) p ((.arrow spec, none) :: rest.1, rest.2) where
  map_fst := congrArg (Item.arrow spec :: ·) h.map_fst
  elements := List.forall_mem_cons.mpr ⟨fun _ he => (nomatch he), h.elements⟩
  arrows := List.forall_mem_cons.mpr ⟨fun _ => rfl, h.arrows⟩
  boxes := by
    rw [h.boxes, List.filterMap_cons_none]
    rfl

end FirstMade

/-- The first pass over items that state their ids. -/
theorem FirstRun.firstMade {settings : Settings α} {items : List (Item α)}
    {made : List (Item α × Option (Element α))} {p p' : Progress α}
    (h : FirstRun settings items made p p') (hstated : ∀ item ∈ items, item.common.id.isSome) :
    FirstMade settings items p (made, p') := by
  induction h with
  | nil p => exact ⟨rfl, List.forall_mem_nil _, List.forall_mem_nil _, rfl⟩
  | target hitem first _ ih =>
    obtain ⟨hfirst, hitems⟩ := List.forall_mem_cons.mp hstated
    obtain ⟨id, hid⟩ := Option.isSome_iff_exists.mp hfirst
    exact .target hid hitem first (ih hitems)
  | arrow spec _ ih => exact .arrow spec (ih (List.forall_mem_cons.mp hstated).2)

/-- The second pass over what the first one made. -/
theorem map_element_compileArrows {settings : Settings α}
    {made : List (Item α × Option (Element α))}
    (hstated : ∀ m ∈ made, m.1.common.id.isSome)
    (helements : ∀ m ∈ made, ∀ e, m.2 = some e →
      ∀ boxes, m.1.element settings boxes = .ok e.unstamped)
    (harrows : ∀ m ∈ made, m.2 = none → m.1.isArrow = true) {p : Progress α}
    {es : List (Element α)} (h : compileArrows settings made p = .ok es) :
    made.map (fun m => m.1.element settings p.boxes) = es.map fun e => .ok e.unstamped := by
  induction made generalizing p es with
  | nil =>
    obtain rfl := Except.ok.inj h
    rfl
  | cons m made ih =>
    obtain ⟨item, e?⟩ := m
    obtain ⟨hitem, hstated'⟩ := List.forall_mem_cons.mp hstated
    obtain ⟨helement, helements'⟩ := List.forall_mem_cons.mp helements
    obtain ⟨harrow, harrows'⟩ := List.forall_mem_cons.mp harrows
    obtain ⟨id, hid⟩ := Option.isSome_iff_exists.mp hitem
    cases e? with
    | some e =>
      rw [compileArrows_target] at h
      obtain ⟨rest, hrest, h⟩ := bind_eq_ok_iff.mp h
      obtain rfl := Except.ok.inj h
      rw [List.map_cons, List.map_cons, ih hstated' helements' harrows' hrest,
        helement e rfl p.boxes]
    | none =>
      cases item with
      | shape kind spec => exact nomatch harrow rfl
      | text spec => exact nomatch harrow rfl
      | arrow spec =>
        obtain ⟨first, hfirst, h⟩ := bind_eq_ok_iff.mp h
        obtain ⟨rest, hrest, h⟩ := bind_eq_ok_iff.mp h
        obtain rfl := Except.ok.inj h
        have hboxes : first.2.boxes = p.boxes := Item.boxes_compileArrow hfirst
        have hmap := ih hstated' helements' harrows' hrest
        rw [hboxes] at hmap
        have helement : (Item.arrow spec).element settings p.boxes = .ok first.1.unstamped :=
          Item.element_eq_ok hid hfirst fun _ => rfl
        rw [List.map_cons, List.map_cons, hmap, helement]

/-! ### Documents -/

/-- What is noted for an item is noted under the id that the item states. -/
theorem Item.id_of_notedBox? {settings : Settings α} {item : Item α} {entry : String × Box α}
    (h : item.notedBox? settings = some entry) : item.common.id = some entry.1 := by
  unfold notedBox? at h
  split at h
  · exact nomatch h
  · obtain ⟨id, hid, h⟩ := Option.bind_eq_some_iff.mp h
    obtain ⟨e, -, rfl⟩ := Option.map_eq_some_iff.mp h
    exact hid

/-- Boxes are noted under stated ids. -/
theorem keys_notedBoxes_sublist (settings : Settings α) (items : List (Item α)) :
    Keyed.keys (items.filterMap (Item.notedBox? settings)) <+ statedIds items := by
  induction items with
  | nil => exact .slnil
  | cons item items ih =>
    cases hnoted : item.notedBox? settings with
    | none =>
      rw [List.filterMap_cons_none hnoted]
      exact ih.trans ((List.sublist_cons_self item items).filterMap _)
    | some entry =>
      rw [List.filterMap_cons_some hnoted, Keyed.keys_cons,
        statedIds_cons (Item.id_of_notedBox? hnoted)]
      exact ih.cons_cons entry.1

namespace Document

/-- The boxes of the items of a document other than arrows, by the ids that these state. -/
def boxes (doc : Document α) : Keyed (Box α) := doc.items.filterMap (Item.notedBox? doc.settings)

/-- The document with its items in another order. -/
def inOrder (doc : Document α) (order : List Nat) : Document α :=
  { doc with items := reorder order doc.items }

variable {doc : Document α}

/-- The boxes of items with distinct ids are noted under distinct ids. -/
theorem nodup_keys_boxes (hdistinct : doc.statedIds.Nodup) : (Keyed.keys doc.boxes).Nodup :=
  hdistinct.sublist (keys_notedBoxes_sublist doc.settings doc.items)

/-- The elements of a document are those of its items between the boxes, but for their stamps. -/
theorem map_element_compile (hstated : ∀ item ∈ doc.items, item.common.id.isSome)
    (hdistinct : doc.statedIds.Nodup) {start : Int64} {es : List (Element α)}
    (h : doc.compile start = .ok es) :
    doc.items.map (Item.element doc.settings doc.boxes) = es.map fun e => .ok e.unstamped := by
  unfold Document.compile at h
  split at h
  · exact nomatch h
  · obtain ⟨made, hshapes, harrows⟩ := bind_eq_ok_iff.mp h
    have hfirst := (firstRun_compileShapes hshapes).firstMade hstated
    have hboxes : made.2.boxes = doc.boxes := by
      rw [hfirst.boxes]
      exact Keyed.putAll_eq_append (nodup_keys_boxes hdistinct) fun _ _ => List.not_mem_nil
    have hmade : ∀ m ∈ made.1, m.1.common.id.isSome := by
      intro m hm
      exact hstated m.1 (hfirst.map_fst ▸ List.mem_map_of_mem hm)
    have hmap := map_element_compileArrows hmade hfirst.elements hfirst.arrows harrows
    rw [hboxes] at hmap
    calc doc.items.map (Item.element doc.settings doc.boxes)
      _ = (made.1.map (·.1)).map (Item.element doc.settings doc.boxes) := by rw [hfirst.map_fst]
      _ = made.1.map fun m => m.1.element doc.settings doc.boxes := List.map_map
      _ = es.map fun e => .ok e.unstamped := hmap

variable {order : List Nat} (horder : order ~ List.range doc.items.length)

include horder

/-- The same boxes are found in any order of the items. -/
theorem get?_boxes_inOrder (hdistinct : doc.statedIds.Nodup) (key : String) :
    Keyed.get? (doc.inOrder order).boxes key = Keyed.get? doc.boxes key :=
  Keyed.get?_perm ((reorder_perm horder).symm.filterMap _) (nodup_keys_boxes hdistinct) key

/-- The same problems are there in any order of the items, if there are any. -/
theorem problems_inOrder_eq_nil_iff (hstated : ∀ item ∈ doc.items, item.common.id.isSome) :
    (doc.inOrder order).problems = [] ↔ doc.problems = [] := by
  have hperm : (doc.inOrder order).items ~ doc.items := reorder_perm horder
  have hstated' : ∀ item ∈ (doc.inOrder order).items, item.common.id.isSome := by
    intro item hitem
    exact hstated item (hperm.mem_iff.mp hitem)
  have hids (id : String) : id ∈ (doc.inOrder order).targetIds ↔ id ∈ doc.targetIds := by
    unfold targetIds
    rw [targetIdsFrom_eq_statedIds hstated', targetIdsFrom_eq_statedIds hstated]
    exact ((hperm.filter _).filterMap _).mem_iff
  simp only [problems, List.append_eq_nil_iff, List.flatMap_eq_nil_iff, hperm.mem_iff,
    arrowProblems_congr _ hids]
  rfl

/-- The elements of the items in another order are the elements in that order, but for their
stamps. -/
theorem map_unstamped_inOrder (hstated : ∀ item ∈ doc.items, item.common.id.isSome)
    (hdistinct : doc.statedIds.Nodup) {start start' : Int64} {es es' : List (Element α)}
    (h : doc.compile start = .ok es) (h' : (doc.inOrder order).compile start' = .ok es') :
    es'.map Element.unstamped = reorder order (es.map Element.unstamped) := by
  have hperm : (doc.inOrder order).items ~ doc.items := reorder_perm horder
  have hstated' : ∀ item ∈ (doc.inOrder order).items, item.common.id.isSome := by
    intro item hitem
    exact hstated item (hperm.mem_iff.mp hitem)
  have hdistinct' : (doc.inOrder order).statedIds.Nodup :=
    (hperm.filterMap _).nodup_iff.mpr hdistinct
  have hsame : ∀ item ∈ doc.items, item.element doc.settings (doc.inOrder order).boxes =
      item.element doc.settings doc.boxes := by
    intro item hitem
    obtain ⟨id, hid⟩ := Option.isSome_iff_exists.mp (hstated item hitem)
    exact Item.element_congr hid (get?_boxes_inOrder horder hdistinct)
  let outcome (e : Element α) : Except CompileError (Element α) := .ok e.unstamped
  have houtcome : es'.map outcome = (reorder order es).map outcome :=
    calc es'.map outcome
      _ = (reorder order doc.items).map (Item.element doc.settings (doc.inOrder order).boxes) :=
        (map_element_compile hstated' hdistinct' h').symm
      _ = reorder order (doc.items.map (Item.element doc.settings (doc.inOrder order).boxes)) :=
        map_reorder _ _ _
      _ = reorder order (doc.items.map (Item.element doc.settings doc.boxes)) := by
        rw [List.map_congr_left hsame]
      _ = reorder order (es.map outcome) := by rw [map_element_compile hstated hdistinct h]
      _ = (reorder order es).map outcome := (map_reorder _ _ _).symm
  have hok : Function.Injective (Except.ok (ε := CompileError) (α := Element α)) :=
    fun _ _ => Except.ok.inj
  rw [← map_reorder]
  apply hok.list_map
  rw [List.map_map, List.map_map]
  exact houtcome

end Document

/-- A document whose items state distinct ids compiles in one order of its items exactly when it
does in another.  Then its elements are the same in that order, but for their seeds, their nonces
and their times; so an arrow has the same start and runs the same way. -/
theorem compile_inOrder (doc : Document α) {order : List Nat}
    (horder : order ~ List.range doc.items.length)
    (hstated : ∀ item ∈ doc.items, item.common.id.isSome) (hdistinct : doc.statedIds.Nodup)
    (start start' : Int64) :
    ((∃ es, (doc.inOrder order).compile start' = .ok es) ↔ ∃ es, doc.compile start = .ok es) ∧
      ∀ es es', doc.compile start = .ok es → (doc.inOrder order).compile start' = .ok es' →
        es.length = doc.items.length ∧
          es'.map Element.unstamped = reorder order (es.map Element.unstamped) ∧
          ∀ (i place : Nat) (spec : ArrowSpec α) (e e' : Element α), order[i]? = some place →
            doc.items[place]? = some (.arrow spec) → es[place]? = some e → es'[i]? = some e' →
              e'.x = e.x ∧ e'.y = e.y ∧ e'.kind = e.kind := by
  constructor
  · rw [(reports_compile _ start').exists_ok_iff, (reports_compile doc start).exists_ok_iff]
    exact Document.problems_inOrder_eq_nil_iff horder hstated
  · intro es es' hes hes'
    have hlength : es.length = doc.items.length := (numbered_compile hes).1
    have hmap := Document.map_unstamped_inOrder horder hstated hdistinct hes hes'
    refine ⟨hlength, hmap, ?_⟩
    intro i place spec e e' hplace _ he he'
    have hplaces : ∀ place ∈ order, place < (es.map Element.unstamped).length := by
      intro place hmem
      rw [List.length_map, hlength]
      exact List.mem_range.mp (horder.mem_iff.mp hmem)
    have hsame : some e'.unstamped = some e.unstamped :=
      calc some e'.unstamped
        _ = (es'.map Element.unstamped)[i]? := by rw [List.getElem?_map, he', Option.map_some]
        _ = (reorder order (es.map Element.unstamped))[i]? := by rw [hmap]
        _ = (es.map Element.unstamped)[place]? := by rw [getElem?_reorder hplaces, hplace]; rfl
        _ = some e.unstamped := by rw [List.getElem?_map, he, Option.map_some]
    have hunstamped := Option.some.inj hsame
    exact ⟨congrArg (·.x) hunstamped, congrArg (·.y) hunstamped, congrArg (·.kind) hunstamped⟩

/-! ### An arrow ahead of its ends -/

/-- A text that states its id. -/
def namedText : Item Float :=
  .text { TextSpec.start with common := ⟨some "t", none, none⟩, text := "note", x := 300.0 }

/-- An arrow behind the items to which it refers. -/
def arrowBehind : Document Float :=
  plainDocument [boxAt (some "b") 0.0, namedText,
    .arrow ⟨⟨some "a", none, none⟩, ⟨"b", .right⟩, ⟨"t", .left⟩⟩]

/-- The arrow is the same ahead of the items. -/
theorem compile_inOrder_arrowBehind :
    [2, 1, 0] ~ List.range arrowBehind.items.length ∧
      (∀ item ∈ arrowBehind.items, item.common.id.isSome) ∧ arrowBehind.statedIds.Nodup ∧
      ∃ es es', arrowBehind.compile 1000 = .ok es ∧
        (arrowBehind.inOrder [2, 1, 0]).compile 1000 = .ok es' ∧
        es'.map Element.unstamped = reorder [2, 1, 0] (es.map Element.unstamped) := by
  have horder : [2, 1, 0] ~ List.range arrowBehind.items.length := by decide
  have hstated : ∀ item ∈ arrowBehind.items, item.common.id.isSome := by decide
  have hdistinct : arrowBehind.statedIds.Nodup := by decide
  obtain ⟨es, hes⟩ := (reports_compile arrowBehind 1000).exists_ok_iff.mpr (by decide)
  have h := compile_inOrder arrowBehind horder hstated hdistinct 1000 1000
  obtain ⟨es', hes'⟩ := h.1.mpr ⟨es, hes⟩
  exact ⟨horder, hstated, hdistinct, es, es', hes, hes', (h.2 es es' hes hes').2.1⟩

end DiagramScene.Dsl
