import Mathlib
import DiagramScene.Dsl.Compile
import DiagramScene.Proofs.Dsl.Problems

/-!
# The ids of compiled documents

The items of a document are processed in two passes, first the shapes and the texts and then the
arrows (`Document.processed`), and one counter runs through both.  An item that states no id is
numbered with the counter, and every element is stamped with it.  `Numbered` says what one item does
to the counter and which element comes of it, and `NumberedFrom` what a list of items does.

Numbers only grow, and the name of a type has no hyphen, so two numbered ids are never equal.  But
nothing keeps a stated id from being equal to a numbered one.  The main statement is
`nodup_ids_iff`.
-/

namespace DiagramScene.Dsl

open scoped List

variable {α : Type}

/-! ### Numbers -/

namespace Item

/-- The id of an item that is numbered. -/
def numberedId (item : Item α) (n : Nat) : String := s!"{item.typeName}-{n}"

/-- The id of an item that is processed when the counter is at `n`. -/
def idAt (item : Item α) (n : Nat) : String := item.common.id.getD (item.numberedId n)

/-- The number with which an item is stamped that is processed when the counter is at `n`. -/
def stampAt (item : Item α) (n : Nat) : Nat := if item.common.id.isSome then n else n + 1

end Item

/-- The ids that items get in their order if the counter is at first at the given number. -/
def idsFrom : Nat → List (Item α) → List String
  | _, [] => []
  | n, item :: items => item.idAt n :: idsFrom (item.stampAt n + 1) items

/-- The numbered ones of the ids that items get. -/
def numberedFrom : Nat → List (Item α) → List String
  | _, [] => []
  | n, item :: items =>
    if item.common.id.isSome then numberedFrom (item.stampAt n + 1) items
    else item.numberedId n :: numberedFrom (item.stampAt n + 1) items

/-- The ids that items state. -/
def statedIds (items : List (Item α)) : List String := items.filterMap (·.common.id)

/-- The elements of items in the order in which these are processed. -/
def processedElements (items : List (Item α)) (es : List (Element α)) : List (Element α) :=
  ((items.zip es).filter (!·.1.isArrow)).map (·.2) ++
    ((items.zip es).filter (·.1.isArrow)).map (·.2)

namespace Document

/-- The items in the order in which they are processed. -/
def processed (doc : Document α) : List (Item α) :=
  doc.items.filter (!·.isArrow) ++ doc.items.filter (·.isArrow)

/-- The ids that the items of a document state. -/
def statedIds (doc : Document α) : List String := Dsl.statedIds doc.items

/-- The ids with which the items of a document are numbered that state none. -/
def numberedIds (doc : Document α) : List String := numberedFrom 1 doc.processed

end Document

/-- Items are only put into another order when they are processed. -/
theorem Document.processed_perm (doc : Document α) : doc.processed ~ doc.items := by
  have hperm := List.filter_append_perm (fun item : Item α => !item.isArrow) doc.items
  simp only [Bool.not_not] at hperm
  exact hperm

/-- The name of a type has no hyphen. -/
theorem hyphen_not_mem_typeName (item : Item α) : '-' ∉ item.typeName.toList := by
  cases item with
  | shape kind spec =>
    cases kind with
    | box => exact (by decide : '-' ∉ "box".toList)
    | ellipse => exact (by decide : '-' ∉ "ellipse".toList)
    | diamond => exact (by decide : '-' ∉ "diamond".toList)
  | text spec => exact (by decide : '-' ∉ "text".toList)
  | arrow spec => exact (by decide : '-' ∉ "arrow".toList)

/-- The characters of a numbered id: the digits stand behind the first hyphen. -/
theorem toList_numberedId (item : Item α) (n : Nat) :
    (item.numberedId n).toList = item.typeName.toList ++ '-' :: Nat.toDigits 10 n := by
  have happend : item.numberedId n = item.typeName ++ "-" ++ Nat.repr n := by
    simp [Item.numberedId, toString, String.append_assoc]
  rw [happend, String.toList_append, String.toList_append, Nat.toList_repr]
  simp

/-- Items that are numbered with different numbers have different ids. -/
theorem numberedId_injective {item item' : Item α} {n n' : Nat}
    (h : item.numberedId n = item'.numberedId n') : n = n' := by
  have hbehind (item : Item α) (n : Nat) :
      (item.numberedId n).toList.dropWhile (· != '-') = '-' :: Nat.toDigits 10 n := by
    rw [toList_numberedId, List.dropWhile_append_of_pos]
    · rfl
    · intro c hc
      exact bne_iff_ne.mpr fun heq => hyphen_not_mem_typeName item (heq ▸ hc)
  have hdigits : Nat.toDigits 10 n = Nat.toDigits 10 n' := by
    have hdrop := congrArg (fun id => id.toList.dropWhile (· != '-')) h
    simpa only [hbehind, List.cons.injEq, true_and] using hdrop
  simpa using congrArg (fun digits => Nat.ofDigitChars 10 digits 0) hdigits

/-- The number of a stamp is not before the number of the id. -/
theorem le_stampAt (item : Item α) (n : Nat) : n ≤ item.stampAt n := by
  unfold Item.stampAt
  split <;> omega

/-- A numbered id has a number from the first one on. -/
theorem exists_of_mem_numberedFrom {id : String} {n : Nat} {items : List (Item α)}
    (h : id ∈ numberedFrom n items) : ∃ item ∈ items, ∃ m, n ≤ m ∧ id = item.numberedId m := by
  induction items generalizing n with
  | nil => exact nomatch h
  | cons item items ih =>
    have hle := le_stampAt item n
    have hrest (h : id ∈ numberedFrom (item.stampAt n + 1) items) :
        ∃ item' ∈ item :: items, ∃ m, n ≤ m ∧ id = item'.numberedId m := by
      obtain ⟨item', hitem', m, hm, hid⟩ := ih h
      exact ⟨item', .tail _ hitem', m, by omega, hid⟩
    unfold numberedFrom at h
    split at h
    · exact hrest h
    · rcases List.mem_cons.mp h with hid | h
      · exact ⟨item, .head _, n, le_rfl, hid⟩
      · exact hrest h

/-- Numbered ids are pairwise distinct. -/
theorem nodup_numberedFrom (n : Nat) (items : List (Item α)) : (numberedFrom n items).Nodup := by
  induction items generalizing n with
  | nil => exact .nil
  | cons item items ih =>
    unfold numberedFrom
    split
    · exact ih _
    · refine List.nodup_cons.mpr ⟨fun hmem => ?_, ih _⟩
      obtain ⟨item', -, m, hm, hid⟩ := exists_of_mem_numberedFrom hmem
      have heq := numberedId_injective hid
      have hle := le_stampAt item n
      omega

/-- The ids of items are the stated and the numbered ones. -/
theorem idsFrom_perm (n : Nat) (items : List (Item α)) :
    (idsFrom n items).Perm (statedIds items ++ numberedFrom n items) := by
  induction items generalizing n with
  | nil => exact .nil
  | cons item items ih =>
    simp only [idsFrom, numberedFrom, statedIds, List.filterMap_cons, Item.idAt]
    cases item.common.id with
    | some id => exact (ih _).cons id
    | none => exact ((ih _).cons _).trans List.perm_middle.symm

/-- Elements for items are only put into another order when these are processed. -/
theorem processedElements_perm {items : List (Item α)} {es : List (Element α)}
    (h : es.length = items.length) : (processedElements items es).Perm es := by
  have hperm := (List.filter_append_perm (fun made => !made.1.isArrow) (items.zip es)).map (·.2)
  simpa only [Bool.not_not, List.map_append, List.map_snd_zip h.le, processedElements] using hperm

/-! ### Items -/

/-- What is done for an item when the counter is at `c`: the element has the id that the item
states, or else the number of the counter, and the next number stamps it. -/
structure Numbered (item : Item α) (c : Counter) (e : Element α) (c' : Counter) : Prop where
  id : e.id = item.idAt c.next
  seed : e.seed = Int64.ofNat (item.stampAt c.next)
  versionNonce : e.versionNonce = Int64.ofNat (item.stampAt c.next + 100)
  updated : e.updated = c.start + Int64.ofNat (item.stampAt c.next)
  counter : c' = ⟨item.stampAt c.next + 1, c.start⟩

/-- What is done for items one after the other. -/
inductive NumberedFrom : List (Item α) → Counter → List (Element α) → Counter → Prop
  | nil (c : Counter) : NumberedFrom [] c [] c
  | cons {item : Item α} {items : List (Item α)} {c c₁ c₂ : Counter} {e : Element α}
    {es : List (Element α)} (first : Numbered item c e c₁) (rest : NumberedFrom items c₁ es c₂) :
    NumberedFrom (item :: items) c (e :: es) c₂

namespace NumberedFrom

/-- Items in front of others. -/
theorem append {items items' : List (Item α)} {c c₁ c₂ : Counter} {es es' : List (Element α)}
    (h : NumberedFrom items c es c₁) (h' : NumberedFrom items' c₁ es' c₂) :
    NumberedFrom (items ++ items') c (es ++ es') c₂ := by
  induction h with
  | nil c => exact h'
  | cons first _ ih => exact .cons first (ih h')

/-- The ids of the elements. -/
theorem ids {items : List (Item α)} {c c' : Counter} {es : List (Element α)}
    (h : NumberedFrom items c es c') : es.map (·.id) = idsFrom c.next items := by
  induction h with
  | nil c => rfl
  | cons first _ ih => rw [List.map_cons, ih, first.id, first.counter, idsFrom]

end NumberedFrom

/-- An item with its id is stamped with the number behind it. -/
theorem numbered_stamp (item : Item α) {p q : Progress α} {e : Element α}
    (hq : q = (p.idFor item.common item.typeName).2)
    (hid : e.id = (p.idFor item.common item.typeName).1) :
    Numbered item p.counter (q.stamp e).1 (q.stamp e).2.counter := by
  have hcounter : q.counter = ⟨item.stampAt p.counter.next, p.counter.start⟩ := by
    rw [hq]
    unfold Progress.idFor Item.stampAt
    cases item.common.id <;> rfl
  constructor
  · change e.id = _
    rw [hid]
    unfold Progress.idFor Item.idAt
    cases item.common.id <;> rfl
  · change Int64.ofNat q.counter.next = _
    rw [hcounter]
  · change Int64.ofNat (q.counter.next + 100) = _
    rw [hcounter]
  · change q.counter.start + Int64.ofNat q.counter.next = _
    rw [hcounter]
  · change (⟨q.counter.next + 1, q.counter.start⟩ : Counter) = _
    rw [hcounter]

variable [Scalar α]

/-- The element of an item is numbered, whatever the type of the item. -/
theorem Item.numbered_compile {settings : Settings α} {item : Item α} {p : Progress α}
    {made : Element α × Progress α} (h : item.compile settings p = .ok made) :
    Numbered item p.counter made.1 made.2.counter := by
  obtain ⟨bare, hid, hmade, hcounter⟩ := (booked_compile h).stamped
  rw [hmade, hcounter]
  exact numbered_stamp item rfl hid

/-! ### Passes -/

/-- The first pass numbers the items other than arrows. -/
theorem FirstRun.numbered {settings : Settings α} {items : List (Item α)}
    {made : List (Item α × Option (Element α))} {p p' : Progress α}
    (h : FirstRun settings items made p p') :
    NumberedFrom (items.filter (!·.isArrow)) p.counter (made.filterMap (·.2)) p'.counter := by
  induction h with
  | nil p => exact .nil _
  | target hitem first _ ih =>
    rw [List.filter_cons_of_pos (by rw [hitem]; rfl)]
    exact .cons (Item.numbered_compile first) ih
  | arrow spec _ ih => exact ih

/-- What the second pass makes: the elements of the first pass stay where they are, and the arrows
are numbered. -/
structure NumbersArrows (items : List (Item α)) (made : List (Item α × Option (Element α)))
    (c : Counter) (es : List (Element α)) (c' : Counter) : Prop where
  length : es.length = items.length
  targets : ((items.zip es).filter (!·.1.isArrow)).map (·.2) = made.filterMap (·.2)
  arrows : NumberedFrom (items.filter (·.isArrow)) c
    (((items.zip es).filter (·.1.isArrow)).map (·.2)) c'

/-- The second pass numbers the arrows. -/
theorem numbered_compileArrows {settings : Settings α} {items : List (Item α)}
    {made : List (Item α × Option (Element α))} {p₀ p₁ : Progress α}
    (hmade : FirstRun settings items made p₀ p₁) {p : Progress α} {es : List (Element α)}
    (h : compileArrows settings made p = .ok es) :
    ∃ c, NumbersArrows items made p.counter es c := by
  induction hmade generalizing p es with
  | nil p₀ =>
    obtain rfl := Except.ok.inj h
    exact ⟨p.counter, rfl, rfl, .nil _⟩
  | target hitem _ _ ih =>
    rw [compileArrows_target] at h
    obtain ⟨rest, harrows, h⟩ := bind_eq_ok_iff.mp h
    obtain rfl := Except.ok.inj h
    obtain ⟨c, hrest⟩ := ih harrows
    refine ⟨c, ?_, ?_, ?_⟩
    · rw [List.length_cons, List.length_cons, hrest.length]
    · simp [hitem, hrest.targets]
    · simpa [hitem] using hrest.arrows
  | arrow spec _ ih =>
    obtain ⟨first, hfirst, h⟩ := bind_eq_ok_iff.mp h
    obtain ⟨rest, harrows, h⟩ := bind_eq_ok_iff.mp h
    obtain rfl := Except.ok.inj h
    obtain ⟨c, hrest⟩ := ih harrows
    refine ⟨c, ?_, ?_, ?_⟩
    · rw [List.length_cons, List.length_cons, hrest.length]
    · exact hrest.targets
    · have harrow : Numbered (.arrow spec) _ first.1 first.2.counter :=
        Item.numbered_compile hfirst
      exact .cons harrow hrest.arrows

/-! ### Documents -/

/-- The items of a document are numbered in the order in which they are processed. -/
theorem numbered_compile {doc : Document α} {start : Int64} {es : List (Element α)}
    (h : doc.compile start = .ok es) : es.length = doc.items.length ∧
      ∃ c, NumberedFrom doc.processed (.ofStart start) (processedElements doc.items es) c := by
  unfold Document.compile at h
  split at h
  · exact nomatch h
  · obtain ⟨made, hshapes, harrows⟩ := bind_eq_ok_iff.mp h
    have hmade := firstRun_compileShapes hshapes
    obtain ⟨c, hpass⟩ := numbered_compileArrows hmade harrows
    refine ⟨hpass.length, c, ?_⟩
    rw [processedElements, hpass.targets]
    exact hmade.numbered.append hpass.arrows

/-- The ids of the elements are the ones that the items state and the ones that they are numbered
with. -/
theorem ids_compile_perm {doc : Document α} {start : Int64} {es : List (Element α)}
    (h : doc.compile start = .ok es) :
    (es.map (·.id)).Perm (doc.statedIds ++ doc.numberedIds) := by
  obtain ⟨hlength, c, hnumbered⟩ := numbered_compile h
  have hstated : (statedIds doc.processed).Perm doc.statedIds := doc.processed_perm.filterMap _
  calc es.map (·.id)
    _ ~ (processedElements doc.items es).map (·.id) :=
      ((processedElements_perm hlength).map _).symm
    _ = idsFrom 1 doc.processed := hnumbered.ids
    _ ~ statedIds doc.processed ++ doc.numberedIds := idsFrom_perm 1 doc.processed
    _ ~ doc.statedIds ++ doc.numberedIds := hstated.append_right _

/-- The elements of a document have pairwise distinct ids exactly when the ids that its items state
are pairwise distinct and none of them is the id with which another item is numbered. -/
theorem nodup_ids_iff {doc : Document α} {start : Int64} {es : List (Element α)}
    (h : doc.compile start = .ok es) :
    (es.map (·.id)).Nodup ↔
      doc.statedIds.Nodup ∧ ∀ id ∈ doc.statedIds, id ∉ doc.numberedIds := by
  rw [(ids_compile_perm h).nodup_iff, List.nodup_append]
  constructor
  · rintro ⟨hstated, -, hdisjoint⟩
    exact ⟨hstated, fun id hid hnumbered => hdisjoint id hid id hnumbered rfl⟩
  · rintro ⟨hstated, hapart⟩
    refine ⟨hstated, nodup_numberedFrom _ _, ?_⟩
    rintro id hid _ hnumbered rfl
    exact hapart id hid hnumbered

/-! ### Stated and numbered ids side by side -/

/-- A box of a fixed size, with an id or without one. -/
def boxAt (id : Option String) (x : Float) : Item Float :=
  .shape .box ⟨⟨id, none, none⟩, x, 0.0, 100.0, 50.0⟩

/-- A document of items without a grid and without presets. -/
def plainDocument (items : List (Item Float)) : Document Float := ⟨none, [], false, items⟩

/-- The two boxes that state no id are numbered around an id that looks like theirs, and so is the
arrow, which is processed last. -/
def mixedIds : Document Float :=
  plainDocument [.arrow ⟨.empty, ⟨"box-1", .right⟩, ⟨"box-4", .left⟩⟩, boxAt none 0.0,
    boxAt (some "box-3") 300.0, boxAt none 600.0]

/-- The mixed ids are pairwise distinct. -/
theorem nodup_ids_mixedIds :
    ∃ es, mixedIds.compile 1000 = .ok es ∧ (es.map (·.id)).Nodup := by
  obtain ⟨es, hes⟩ := (reports_compile mixedIds 1000).exists_ok_iff.mpr (by decide)
  exact ⟨es, hes, (nodup_ids_iff hes).mpr (by decide)⟩

/-- The first box states the id with which the second one is numbered. -/
def lookalikeIds : Document Float := plainDocument [boxAt (some "box-2") 0.0, boxAt none 300.0]

/-- The ids that the items state are pairwise distinct, and the document compiles, but two of its
elements have the same id. -/
theorem not_nodup_ids_lookalikeIds : lookalikeIds.statedIds.Nodup ∧
    ∃ es, lookalikeIds.compile 1000 = .ok es ∧ ¬ (es.map (·.id)).Nodup := by
  obtain ⟨es, hes⟩ := (reports_compile lookalikeIds 1000).exists_ok_iff.mpr (by decide)
  refine ⟨by decide, es, hes, fun hnodup => ?_⟩
  have hids := (ids_compile_perm hes).nodup_iff.mp hnodup
  exact absurd hids (by decide)

end DiagramScene.Dsl
