import Mathlib
import DiagramScene.Proofs.Dsl.Numbering

/-!
# The stamps of compiled documents

Every element is stamped with a number of the counter: this is its seed, and nonce and time follow
from it.  The counter is used once for each stamp and once more for each item that states no id
(`counterUses`), and it never gives a number twice.  So the seeds grow in the order in which the
items are processed, and the number in an id that was made up is the one before the seed.

The main statement is `stamped_compile`.  It is about the seeds as integers, so the numbers must not
leave the range of 64 bits.
-/

namespace DiagramScene.Dsl

open scoped List

variable {α : Type}

/-! ### Numbers -/

/-- How often the counter is used for items. -/
def counterUses (items : List (Item α)) : Nat :=
  items.length + items.countP (·.common.id.isNone)

/-- The numbers with which items are stamped in their order if the counter is at first at the given
number. -/
def stampsFrom : Nat → List (Item α) → List Nat
  | _, [] => []
  | n, item :: items => item.stampAt n :: stampsFrom (item.stampAt n + 1) items

/-- The first item takes the counter as far as the uses for it. -/
theorem stampAt_add_counterUses (item : Item α) (items : List (Item α)) (n : Nat) :
    item.stampAt n + 1 + counterUses items = n + counterUses (item :: items) := by
  unfold Item.stampAt counterUses
  rw [List.countP_cons, List.length_cons]
  cases item.common.id with
  | none => simp; omega
  | some id => simp; omega

/-- The counter is used equally often for items in another order. -/
theorem counterUses_perm {items items' : List (Item α)} (h : items ~ items') :
    counterUses items = counterUses items' := by
  rw [counterUses, counterUses, h.length_eq, h.countP_eq]

/-- A stamp is one of the numbers that the counter takes. -/
theorem bounds_of_mem_stampsFrom {m n : Nat} {items : List (Item α)}
    (h : m ∈ stampsFrom n items) : n ≤ m ∧ m < n + counterUses items := by
  induction items generalizing n with
  | nil => exact absurd h List.not_mem_nil
  | cons item items ih =>
    have hle := le_stampAt item n
    have huses := stampAt_add_counterUses item items n
    rcases List.mem_cons.mp h with rfl | h
    · omega
    · have hrest := ih h
      omega

/-- The stamps grow. -/
theorem pairwise_stampsFrom (n : Nat) (items : List (Item α)) :
    (stampsFrom n items).Pairwise (· < ·) := by
  induction items generalizing n with
  | nil => exact .nil
  | cons item items ih =>
    refine .cons (fun m hm => ?_) (ih _)
    exact (bounds_of_mem_stampsFrom hm).1

/-- The first stamp is the number of the counter or the next one. -/
theorem head?_stampsFrom {m n : Nat} {items : List (Item α)}
    (h : m ∈ (stampsFrom n items).head?) : m = n ∨ m = n + 1 := by
  cases items with
  | nil => exact nomatch h
  | cons item items =>
    obtain rfl : item.stampAt n = m := Option.some.inj h
    unfold Item.stampAt
    split
    · exact .inl rfl
    · exact .inr rfl

/-! ### Elements -/

/-- The stamp of the element of an item: its nonce and its time follow from its seed, and so does
the id if one was made up. -/
structure Stamped (start : Int64) (item : Item α) (e : Element α) : Prop where
  versionNonce : e.versionNonce = e.seed + 100
  updated : e.updated.toInt = start.toInt + e.seed.toInt
  id : item.common.id = none → ∃ n : Nat, e.seed.toInt = n + 1 ∧ e.id = item.numberedId n

/-- The ids of the elements whose items state none. -/
def generatedIds (items : List (Item α)) (es : List (Element α)) : List String :=
  ((items.zip es).filter (·.1.common.id.isNone)).map (·.2.id)

/-- The numbers up to a bound, and the times that are counted with them, are integers of 64 bits. -/
def HasRoom (start : Int64) (bound : Nat) : Prop :=
  max start.toInt 0 + bound < 2 ^ 63

/-- A number within the room is itself as an integer of 64 bits. -/
theorem HasRoom.toInt_ofNat {start : Int64} {bound n : Nat} (h : HasRoom start bound)
    (hn : n ≤ bound) : (Int64.ofNat n).toInt = n := by
  unfold HasRoom at h
  exact Int64.toInt_ofNat_of_lt (by omega)

/-- A time within the room is the sum of the start and the number. -/
theorem HasRoom.toInt_add {start : Int64} {bound n : Nat} (h : HasRoom start bound)
    (hn : n ≤ bound) : (start + Int64.ofNat n).toInt = start.toInt + n := by
  have hstart := start.le_toInt
  have hnumber := h.toInt_ofNat hn
  unfold HasRoom at h
  rw [Int64.toInt_add, hnumber]
  exact Int.bmod_eq_of_le (by omega) (by omega)

/-- An item that is numbered within the room is stamped. -/
theorem Numbered.stamped {item : Item α} {c c' : Counter} {e : Element α} {bound : Nat}
    (h : Numbered item c e c') (hroom : HasRoom c.start bound)
    (hbound : item.stampAt c.next ≤ bound) : Stamped c.start item e where
  versionNonce := by
    rw [h.versionNonce, h.seed]
    exact Int64.ofNat_add _ 100
  updated := by
    rw [h.updated, h.seed, hroom.toInt_add hbound, hroom.toInt_ofNat hbound]
  id := by
    intro hnone
    refine ⟨c.next, ?_, ?_⟩
    · rw [h.seed, hroom.toInt_ofNat hbound, Item.stampAt, hnone]
      rfl
    · rw [h.id, Item.idAt, hnone]
      rfl

namespace NumberedFrom

variable {items : List (Item α)} {c c' : Counter} {es : List (Element α)}

/-- The seeds of elements are their stamps. -/
theorem toInt_seeds (h : NumberedFrom items c es c') {bound : Nat} (hroom : HasRoom c.start bound)
    (hbound : c.next + counterUses items ≤ bound + 1) :
    es.map (·.seed.toInt) = (stampsFrom c.next items).map fun n : Nat => (n : Int) := by
  -- The bound is the same for all items: what the counter has used, the rest does not need.
  induction h with
  | nil c => rfl
  | @cons item items c c₁ c₂ e es first _ ih =>
    have huses := stampAt_add_counterUses item items c.next
    have hseed : e.seed.toInt = item.stampAt c.next := by
      rw [first.seed, hroom.toInt_ofNat (by omega)]
    have hcounter := first.counter
    subst hcounter
    rw [List.map_cons, ih hroom (by dsimp only; omega), hseed, stampsFrom, List.map_cons]

/-- The ids that were made up. -/
theorem generatedIds (h : NumberedFrom items c es c') :
    generatedIds items es = numberedFrom c.next items := by
  unfold Dsl.generatedIds
  induction h with
  | nil c => rfl
  | @cons item items c c₁ c₂ e es first _ ih =>
    have hid := first.id
    rw [first.counter] at ih
    rw [List.zip_cons_cons, numberedFrom]
    unfold Item.idAt at hid
    cases hnone : item.common.id with
    | none =>
      rw [hnone] at hid
      rw [List.filter_cons_of_pos (by rw [hnone]; rfl), List.map_cons, ih, hid]
      rfl
    | some id =>
      rw [List.filter_cons_of_neg (by rw [hnone]; exact Bool.false_ne_true), ih]
      rfl

/-- Items that are numbered within the room are stamped. -/
theorem stamped (h : NumberedFrom items c es c') {bound : Nat} (hroom : HasRoom c.start bound)
    (hbound : c.next + counterUses items ≤ bound + 1) :
    List.Forall₂ (Stamped c.start) items es := by
  induction h with
  | nil c => exact .nil
  | @cons item items c c₁ c₂ e es first _ ih =>
    have huses := stampAt_add_counterUses item items c.next
    have hcounter := first.counter
    subst hcounter
    exact .cons (first.stamped hroom (by omega)) (ih hroom (by dsimp only; omega))

end NumberedFrom

/-! ### Documents -/

/-- The elements of items are only put into another order, each with its item, when these are
processed. -/
theorem zip_processedElements_perm {doc : Document α} {es : List (Element α)}
    (h : es.length = doc.items.length) :
    doc.processed.zip (processedElements doc.items es) ~ doc.items.zip es := by
  have hitems (p : Item α → Bool) :
      doc.items.filter p = ((doc.items.zip es).filter (p ·.1)).map (·.1) := by
    have hfst := List.map_fst_zip h.ge
    calc doc.items.filter p
      _ = ((doc.items.zip es).map Prod.fst).filter p := by rw [hfst]
      _ = ((doc.items.zip es).filter (p ·.1)).map (·.1) := List.filter_map
  have hlength (made : List (Item α × Element α)) :
      (made.map (·.1)).length = (made.map (·.2)).length := by
    rw [List.length_map, List.length_map]
  have hzip (made : List (Item α × Element α)) : (made.map (·.1)).zip (made.map (·.2)) = made := by
    rw [List.zip_map', List.map_id']
  have hperm := List.filter_append_perm (fun made => !made.1.isArrow) (doc.items.zip es)
  simp only [Bool.not_not] at hperm
  rw [Document.processed, processedElements, hitems, hitems, List.zip_append (hlength _), hzip,
    hzip]
  exact hperm

/-- A document whose numbers have room is stamped with a counter that is never used twice.  In the
order in which the items are processed the seeds grow, from one or two on; each element has the
nonce, the time and, if its item states no id, the id that follow from its seed; and no id is made
up twice. -/
theorem stamped_compile [Scalar α] {doc : Document α} {start : Int64} {es : List (Element α)}
    (h : doc.compile start = .ok es) (hroom : HasRoom start (counterUses doc.items)) :
    ((processedElements doc.items es).map (·.seed.toInt)).Pairwise (· < ·) ∧
      (∀ seed ∈ ((processedElements doc.items es).map (·.seed.toInt)).head?,
        seed = 1 ∨ seed = 2) ∧
      List.Forall₂ (Stamped start) doc.items es ∧ (generatedIds doc.items es).Nodup := by
  obtain ⟨hlength, c, hnumbered⟩ := numbered_compile h
  have huses : counterUses doc.processed = counterUses doc.items :=
    counterUses_perm doc.processed_perm
  have hbound : 1 + counterUses doc.processed ≤ counterUses doc.items + 1 := by omega
  have hseeds : (processedElements doc.items es).map (·.seed.toInt) =
      (stampsFrom 1 doc.processed).map fun n : Nat => (n : Int) :=
    hnumbered.toInt_seeds hroom hbound
  have hzip := zip_processedElements_perm hlength
  refine ⟨?_, ?_, ?_, ?_⟩
  · rw [hseeds, List.pairwise_map]
    exact (pairwise_stampsFrom 1 doc.processed).imp Int.ofNat_lt.mpr
  · intro seed hseed
    rw [hseeds, List.head?_map] at hseed
    obtain ⟨n, hn, rfl⟩ := Option.mem_map.mp hseed
    rcases head?_stampsFrom hn with rfl | rfl
    · exact .inl rfl
    · exact .inr rfl
  · have hstamped : List.Forall₂ (Stamped start) doc.processed (processedElements doc.items es) :=
      hnumbered.stamped hroom hbound
    refine List.forall₂_iff_zip.mpr ⟨hlength.symm, fun hmem => ?_⟩
    exact (List.forall₂_iff_zip.mp hstamped).2 (hzip.mem_iff.mpr hmem)
  · have hids : generatedIds doc.processed (processedElements doc.items es) ~
        generatedIds doc.items es := (hzip.filter _).map _
    rw [← hids.nodup_iff, hnumbered.generatedIds]
    exact nodup_numberedFrom _ _

/-- The mixed ids are stamped out of their order: the arrow in front is processed last. -/
theorem stamped_mixedIds : HasRoom 1000 (counterUses mixedIds.items) ∧
    ∃ es, mixedIds.compile 1000 = .ok es ∧
      ((processedElements mixedIds.items es).map (·.seed.toInt)).Pairwise (· < ·) ∧
      List.Forall₂ (Stamped 1000) mixedIds.items es ∧ (generatedIds mixedIds.items es).Nodup := by
  have hroom : HasRoom 1000 (counterUses mixedIds.items) := by
    unfold HasRoom
    decide
  obtain ⟨es, hes⟩ := (reports_compile mixedIds 1000).exists_ok_iff.mpr (by decide)
  obtain ⟨hseeds, -, hstamped, hids⟩ := stamped_compile hes hroom
  exact ⟨hroom, es, hes, hseeds, hstamped, hids⟩

end DiagramScene.Dsl
