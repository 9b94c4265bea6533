import Mathlib
import DiagramScene.Proofs.Json.NumberText

/-!
# Nesting

`depth` counts how deep arrays and objects are nested in a value.  A value that is read is not
nested as deep as the limit (`depth_lt_of_read`), and a higher limit changes nothing about a text
that can be read with a lower one (`read_of_le`).

Both follow from one comparison of two runs of the reader on the same bytes: `AtMost` says that the
value of the first is nested at most so deep, and that the second, with the higher limit, reads the
same.
-/

namespace DiagramScene.Json

mutual

/-- How deep arrays and objects are nested in a value. -/
def depth : Json → Nat
  | null | bool _ | num _ | str _ => 0
  | arr xs => depthItems xs + 1
  | obj ms => depthMembers ms + 1

/-- How deep they are nested in the items of an array. -/
def depthItems : List Json → Nat
  | [] => 0
  | x :: xs => max (depth x) (depthItems xs)

/-- How deep they are nested in the members of an object. -/
def depthMembers : List (String × Json) → Nat
  | [] => 0
  | (_, v) :: ms => max (depth v) (depthMembers ms)

end

/-- The depth of items is the greatest of theirs. -/
theorem depthItems_le_iff {items : List Json} {n : Nat} :
    depthItems items ≤ n ↔ ∀ j ∈ items, j.depth ≤ n := by
  induction items with
  | nil => simp [depthItems]
  | cons j items ih => rw [depthItems, max_le_iff, ih, List.forall_mem_cons]

/-- The depth of members is the greatest of those of their values. -/
theorem depthMembers_le_iff {members : Members} {n : Nat} :
    depthMembers members ≤ n ↔ ∀ m ∈ members, m.2.depth ≤ n := by
  induction members with
  | nil => simp [depthMembers]
  | cons m members ih => rw [depthMembers, max_le_iff, ih, List.forall_mem_cons]

/-- An array is nested one deeper than its items. -/
theorem depth_arr_le_iff {items : List Json} {n : Nat} :
    (arr items).depth ≤ n + 1 ↔ ∀ j ∈ items, j.depth ≤ n := by
  rw [depth, Nat.add_le_add_iff_right, depthItems_le_iff]

/-- An object is nested one deeper than its values. -/
theorem depth_obj_le_iff {members : Members} {n : Nat} :
    (obj members).depth ≤ n + 1 ↔ ∀ m ∈ members, m.2.depth ≤ n := by
  rw [depth, Nat.add_le_add_iff_right, depthMembers_le_iff]

/-! ### Reading with two limits -/

/-- The first outcome is nested at most so deep, and the second is the same. -/
abbrev AtMost (n : Nat) : Except Fault (Json × Bytes) → Except Fault (Json × Bytes) → Prop :=
  Refines fun low high => low.1.depth ≤ n ∧ high = low

/-- A number after its sign is not nested. -/
theorem atMost_readNumber (n : Nat) (negative : Bool) (s : Bytes) :
    AtMost n (readNumber negative s) (readNumber negative s) := by
  have hnil : EndsNumber [] := nofun
  refine .refl fun result hresult => ?_
  obtain ⟨_, -, ⟨m, hm⟩, -⟩ := inFront_readNumber hnil s result hresult
  rw [hm]
  exact ⟨Nat.zero_le n, rfl⟩

/-- A literal name is not nested. -/
theorem atMost_readIdent {value : Json} (h : value.depth = 0) (n : Nat) (expected s : Bytes) :
    AtMost n (readIdent value expected s) (readIdent value expected s) := by
  refine .refl fun ⟨j, left⟩ hresult => ?_
  rw [eq_of_readIdent hresult]
  exact ⟨h.trans_le (Nat.zero_le n), rfl⟩

/-- What is inside of an array or an object, for which one level has to be left. -/
theorem atMost_opened {low high : Nat} (hle : low ≤ high) (s : Bytes)
    (inside : Nat → Except Fault (Json × Bytes))
    (h : ∀ {low high}, low ≤ high → AtMost (low + 1) (inside (low + 1)) (inside (high + 1))) :
    AtMost low (if low + 1 ≤ 1 then failAt .nestedTooDeep s else inside (low + 1 - 1))
      (if high + 1 ≤ 1 then failAt .nestedTooDeep s else inside (high + 1 - 1)) := by
  cases low with
  | zero => exact .error _ _
  | succ low =>
    obtain ⟨high, rfl⟩ := Nat.exists_eq_succ_of_ne_zero (Nat.ne_zero_of_lt hle)
    rw [if_neg (by omega), if_neg (by omega), Nat.add_sub_cancel, Nat.add_sub_cancel]
    exact h (Nat.le_of_succ_le_succ hle)

/-- The functions that read values, items and members with some fuel find the same with a higher
limit, nested at most as deep as the lower one allows. -/
structure ReadsDeeper (fuel : Nat) : Prop where
  value : ∀ {low high}, low ≤ high → ∀ s,
    AtMost low (readValue fuel (low + 1) s) (readValue fuel (high + 1) s)
  items : ∀ {low high}, low ≤ high → ∀ acc s, (∀ j ∈ acc, j.depth ≤ low) →
    AtMost (low + 1) (readItems fuel (low + 1) acc s) (readItems fuel (high + 1) acc s)
  members : ∀ {low high}, low ≤ high → ∀ acc s, (∀ m ∈ acc, m.2.depth ≤ low) →
    AtMost (low + 1) (readMembers fuel (low + 1) acc s) (readMembers fuel (high + 1) acc s)
  member : ∀ {low high}, low ≤ high → ∀ acc s, (∀ m ∈ acc, m.2.depth ≤ low) →
    AtMost (low + 1) (readMember fuel (low + 1) acc s) (readMember fuel (high + 1) acc s)

namespace ReadsDeeper

/-- Without fuel nothing is read. -/
theorem zero : ReadsDeeper 0 where
  value _ _ := by
    unfold readValue
    exact .error _ _
  items _ _ _ _ := by
    unfold readItems
    exact .error _ _
  members _ _ _ _ := by
    unfold readMembers
    exact .error _ _
  member _ _ _ _ := by
    unfold readMember
    exact .error _ _

variable {fuel low high : Nat}

/-- A value is found, if what is inside of it is. -/
theorem readValue_succ (h : ReadsDeeper fuel) (hle : low ≤ high) (s : Bytes) :
    AtMost low (readValue (fuel + 1) (low + 1) s) (readValue (fuel + 1) (high + 1) s) := by
  unfold readValue
  cases skipSpace s with
  | nil => exact .error _ _
  | cons b t =>
    dsimp only
    refine .ite (fun _ => atMost_readIdent rfl low _ t) fun _ => ?_
    refine .ite (fun _ => atMost_readIdent rfl low _ t) fun _ => ?_
    refine .ite (fun _ => atMost_readIdent rfl low _ t) fun _ => ?_
    refine .ite (fun _ => atMost_readNumber low true t) fun _ => ?_
    refine .ite (fun _ => atMost_readNumber low false (b :: t)) fun _ => ?_
    refine .ite (fun _ => ?_) fun _ => ?_
    · refine Refines.bind (Refines.refl fun _ _ => Eq.refl _) ?_
      rintro ⟨text, rest⟩ _ rfl
      exact .ok ⟨Nat.zero_le low, rfl⟩
    -- an array or an object takes one of the levels that are left
    refine .ite (fun _ => ?_) fun _ => .ite (fun _ => ?_) fun _ => .error _ _
    · exact atMost_opened hle (b :: t) (readItems fuel · [] t) fun hle => h.items hle [] t nofun
    · exact atMost_opened hle (b :: t) (readMembers fuel · [] t) fun hle => h.members hle [] t nofun

/-- An item and those behind it are found. -/
theorem item (h : ReadsDeeper fuel) (hle : low ≤ high) {acc : List Json}
    (hacc : ∀ j ∈ acc, j.depth ≤ low) (s : Bytes) :
    AtMost (low + 1)
      (do
        let (item, rest) ← readValue fuel (low + 1) s
        readItems fuel (low + 1) (item :: acc) rest)
      (do
        let (item, rest) ← readValue fuel (high + 1) s
        readItems fuel (high + 1) (item :: acc) rest) := by
  refine Refines.bind (h.value hle s) ?_
  rintro ⟨item, rest⟩ _ ⟨hdepth, rfl⟩
  exact h.items hle _ rest (List.forall_mem_cons.mpr ⟨hdepth, hacc⟩)

/-- Items are found, if values and the items behind them are. -/
theorem readItems_succ (h : ReadsDeeper fuel) (hle : low ≤ high) (acc : List Json) (s : Bytes)
    (hacc : ∀ j ∈ acc, j.depth ≤ low) :
    AtMost (low + 1) (readItems (fuel + 1) (low + 1) acc s)
      (readItems (fuel + 1) (high + 1) acc s) := by
  have hitem := h.item hle hacc
  unfold readItems
  cases skipSpace s with
  | nil => exact .error _ _
  | cons b t =>
    dsimp only
    refine .ite (fun _ => ?_) fun _ => ?_
    · refine .ok ⟨?_, rfl⟩
      exact depth_arr_le_iff.mpr fun j hj => hacc j (List.mem_reverse.mp hj)
    refine .ite (fun hempty => ?_) fun _ => ?_
    · obtain rfl := List.isEmpty_iff.mp hempty
      exact hitem (b :: t)
    refine .ite (fun _ => ?_) fun _ => .error _ _
    cases skipSpace t with
    | nil => exact .error _ _
    | cons c u => exact .ite (fun _ => .error _ _) fun _ => hitem (c :: u)

/-- Members are found, if a member and those behind it are. -/
theorem readMembers_succ (h : ReadsDeeper fuel) (hle : low ≤ high) (acc : Members) (s : Bytes)
    (hacc : ∀ m ∈ acc, m.2.depth ≤ low) :
    AtMost (low + 1) (readMembers (fuel + 1) (low + 1) acc s)
      (readMembers (fuel + 1) (high + 1) acc s) := by
  unfold readMembers
  cases skipSpace s with
  | nil => exact .error _ _
  | cons b t =>
    dsimp only
    refine .ite (fun _ => .ok ⟨depth_obj_le_iff.mpr hacc, rfl⟩) fun _ => ?_
    refine .ite (fun _ => ?_) fun _ => ?_
    · exact .ite (fun _ => h.member hle acc t hacc) fun _ => .error _ _
    refine .ite (fun _ => ?_) fun _ => .error _ _
    cases skipSpace t with
    | nil => exact .error _ _
    | cons c u =>
      refine .ite (fun _ => h.member hle acc u hacc) fun _ => ?_
      exact .ite (fun _ => .error _ _) fun _ => .error _ _

/-- A member is found with those behind it, if its value and they are. -/
theorem readMember_succ (h : ReadsDeeper fuel) (hle : low ≤ high) (acc : Members) (s : Bytes)
    (hacc : ∀ m ∈ acc, m.2.depth ≤ low) :
    AtMost (low + 1) (readMember (fuel + 1) (low + 1) acc s)
      (readMember (fuel + 1) (high + 1) acc s) := by
  unfold readMember
  refine Refines.bind (Refines.refl fun _ _ => Eq.refl _) ?_
  rintro ⟨key, rest⟩ _ rfl
  dsimp only
  cases skipSpace rest with
  | nil => exact .error _ _
  | cons b t =>
    refine .ite (fun _ => ?_) fun _ => .error _ _
    refine Refines.bind (h.value hle t) ?_
    rintro ⟨value, rest⟩ _ ⟨hdepth, rfl⟩
    refine h.members hle _ rest fun m hm => ?_
    rcases Keyed.eq_or_mem_of_mem_put hm with rfl | hm
    · exact hdepth
    · exact hacc m hm

/-- With any fuel the same is found. -/
theorem all (fuel : Nat) : ReadsDeeper fuel := by
  induction fuel with
  | zero => exact zero
  | succ fuel ih =>
    exact ⟨ih.readValue_succ, ih.readItems_succ, ih.readMembers_succ, ih.readMember_succ⟩

end ReadsDeeper

/-- A text that can be read with one limit is not nested as deep, and is read in the same way with a
higher limit. -/
theorem readWhole_of_le {limit : Nat} {s : Bytes} {j : Json} (hlimit : 0 < limit)
    (h : readWhole limit s = .ok j) :
    j.depth < limit ∧ ∀ high, limit ≤ high → readWhole high s = .ok j := by
  obtain ⟨low, rfl⟩ := Nat.exists_eq_succ_of_ne_zero hlimit.ne'
  obtain ⟨rest, hread, hrest⟩ := readWhole_eq_ok_iff.mp h
  obtain ⟨-, -, hdepth, -⟩ := (ReadsDeeper.all _).value (le_refl low) s _ hread
  refine ⟨Nat.lt_succ_of_le hdepth, fun high hle => ?_⟩
  obtain ⟨high, rfl⟩ := Nat.exists_eq_succ_of_ne_zero (hlimit.trans_le hle).ne'
  obtain ⟨_, hread, -, rfl⟩ := (ReadsDeeper.all _).value (Nat.le_of_succ_le_succ hle) s _ hread
  exact readWhole_eq_ok_iff.mpr ⟨rest, hread, hrest⟩

/-- A value that is read is not nested as deep as the limit. -/
theorem depth_lt_of_read {limit : Nat} {s : Bytes} {j : Json} (hlimit : 0 < limit)
    (h : read limit s = .ok j) : j.depth < limit :=
  (readWhole_of_le hlimit (read_eq_ok_iff.mp h)).1

/-- A text that can be read is read in the same way with a higher limit. -/
theorem read_of_le {limit high : Nat} {s : Bytes} {j : Json} (hlimit : 0 < limit)
    (hle : limit ≤ high) (h : read limit s = .ok j) : read high s = .ok j :=
  read_eq_ok_iff.mpr ((readWhole_of_le hlimit (read_eq_ok_iff.mp h)).2 high hle)

end DiagramScene.Json
