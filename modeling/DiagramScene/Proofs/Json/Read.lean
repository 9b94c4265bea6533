import Mathlib
import DiagramScene.Proofs.Json.Lawful
import DiagramScene.Proofs.Number.Scaled

/-!
# Values that are read are well formed

`Json.read` puts every number into one of the 64-bit ranges and refuses those that have no finite
form, and it puts the members of an object by their keys.  So the values that it gives back are
well formed, whatever the bytes are (`wellFormed_of_read`).

`WellRead` says this of the outcome of a reading function, so that the proofs follow the branches
of the functions: a fault gives back nothing, and what is read in steps is well formed if the last
step gives back a well-formed value.
-/

namespace DiagramScene.Json

/-- A value is well formed, if one has been read. -/
def WellRead (outcome : Except Fault (Json × Bytes)) : Prop :=
  ∀ j rest, outcome = .ok (j, rest) → j.WellFormed

namespace WellRead

/-- A fault gives back nothing. -/
theorem error (fault : Fault) : WellRead (.error fault) := nofun

/-- A value that is given back. -/
theorem ok {j : Json} (h : j.WellFormed) (rest : Bytes) : WellRead (.ok (j, rest)) := by
  rintro _ _ ⟨⟩
  exact h

/-- A value that is read in two steps. -/
theorem bind {α : Type} {first : Except Fault α} {next : α → Except Fault (Json × Bytes)}
    (h : ∀ a, first = .ok a → WellRead (next a)) : WellRead (first >>= next) := by
  cases first with
  | error fault => exact error fault
  | ok a => exact h a rfl

end WellRead

/-! ### Names and numbers -/

/-- The rest of a literal name. -/
theorem wellRead_readIdent {value : Json} (h : value.WellFormed) (expected s : Bytes) :
    WellRead (readIdent value expected s) := by
  induction expected generalizing s with
  | nil => exact .ok h s
  | cons e es ih =>
    cases s with
    | nil => exact .error _
    | cons b s =>
      unfold readIdent
      split
      · exact ih s
      · exact .error _

/-- The digits of a significand stay in its range. -/
theorem takeDigits_le {significand : Nat} (h : significand ≤ significandMax) (count : Nat)
    (s : Bytes) : (takeDigits significand count s).1 ≤ significandMax := by
  induction s generalizing significand count with
  | nil => exact h
  | cons b s ih =>
    unfold takeDigits
    split
    · rename_i hfits
      rw [Bool.and_eq_true, decide_eq_true_iff] at hfits
      exact ih hfits.2 (count + 1)
    · exact h

/-- The value of a digit. -/
theorem digitOf_le {b : UInt8} (h : isDigitByte b = true) : digitOf b ≤ 9 := by
  simp only [isDigitByte, Bool.and_eq_true, decide_eq_true_iff, UInt8.le_iff_toNat_le] at h
  unfold digitOf
  have hle : b.toNat ≤ 0x39 := h.2
  omega

/-- A floating point number of either sign. -/
theorem wellFormed_float {x : Float} (h : x.isFinite = true) (negative : Bool) :
    (float (if negative then -x else x)).WellFormed := by
  refine .num ?_
  cases negative with
  | false => exact h
  | true => exact Number.isFinite_neg h

section Numbers

variable {negative : Bool} {significand : Nat} (hs : significand ≤ significandMax)

include hs

/-- A floating point number from its parts. -/
theorem wellRead_floatOf (exponent : Int) (s : Bytes) :
    WellRead (floatOf negative significand exponent s) := by
  unfold floatOf
  split
  · exact .error _
  · rename_i x hx
    have hbits : significand < 2 ^ 64 := Nat.lt_succ_iff.mpr hs
    exact .ok (wellFormed_float (Number.isFinite_scale (Number.atMost_ofNat hbits) hx) negative) s

/-- The digits of an exponent. -/
theorem wellRead_readExponent_go (start : Int) (down : Bool) (value : Nat) (s : Bytes) :
    WellRead (readExponent.go negative significand start down value s) := by
  induction s generalizing value with
  | nil => exact wellRead_floatOf hs _ _
  | cons b s ih =>
    unfold readExponent.go
    split
    · exact wellRead_floatOf hs _ _
    · split
      · split
        · exact .error _
        · refine .ok (.num ?_) _
          unfold Number.InRange
          cases negative with
          | false => decide
          | true => decide
      · exact ih _

/-- An exponent after its mark. -/
theorem wellRead_readExponent (start : Int) (s : Bytes) :
    WellRead (readExponent negative significand start s) := by
  unfold readExponent
  dsimp only
  -- any sign will do, and anything behind it
  generalize Prod.fst _ = down
  generalize Prod.snd _ = rest
  split
  · exact .error _
  · split
    · exact .error _
    · exact wellRead_readExponent_go hs _ _ _ _

/-- What follows the digits of a floating point number. -/
theorem wellRead_finishFloat (exponent : Int) (s : Bytes) :
    WellRead (finishFloat negative significand exponent s) := by
  unfold finishFloat
  split
  · split
    · exact wellRead_readExponent hs _ _
    · exact wellRead_floatOf hs _ _
  · exact wellRead_floatOf hs _ _

/-- The digits after the point. -/
theorem wellRead_readFraction (exponent : Int) (s : Bytes) :
    WellRead (readFraction negative significand exponent s) := by
  unfold readFraction
  dsimp only
  split
  · split
    · exact .error _
    · exact .error _
  · exact wellRead_finishFloat (takeDigits_le hs 0 s) _ _

/-- A number without point and exponent. -/
theorem wellRead_whole (overflow : Nat) (rest : Bytes) :
    WellRead (readNumber.whole negative significand overflow rest) := by
  have hbits : significand < 2 ^ 64 := Nat.lt_succ_iff.mpr hs
  unfold readNumber.whole
  split
  · exact wellRead_floatOf hs _ _
  · split
    · have hrange : (Number.int significand).InRange := ⟨by omega, by omega⟩
      exact .ok (.num hrange) rest
    · split
      · refine .ok (.num ?_) rest
        exact Number.isFinite_neg (Number.isFinite_ofNat hbits)
      · rename_i hsmall
        simp only [Bool.or_eq_true, decide_eq_true_iff, not_or, not_lt] at hsmall
        have hrange : (Number.int (-(significand : Int))).InRange := ⟨by omega, by omega⟩
        exact .ok (.num hrange) rest

end Numbers

/-- A number after its sign. -/
theorem wellRead_readNumber (negative : Bool) (s : Bytes) : WellRead (readNumber negative s) := by
  unfold readNumber
  split
  · exact .error _
  · rename_i b t
    split
    · exact .error _
    · rename_i hdigit
      split
      · exact .error _
      · have hfirst : digitOf b ≤ significandMax := by
          have := digitOf_le (b := b) (by simpa using hdigit)
          unfold significandMax
          omega
        have hs := takeDigits_le hfirst 1 t
        dsimp only
        split
        · split
          · exact wellRead_readFraction hs _ _
          · split
            · exact wellRead_readExponent hs _ _
            · exact wellRead_whole hs _ _
        · exact wellRead_whole hs _ _

/-! ### Values -/

/-- A member that is put into an object. -/
theorem WellFormed.put {members : Members} {value : Json} (h : (Json.obj members).WellFormed)
    (hvalue : value.WellFormed) (key : String) :
    (Json.obj (members.put key value)).WellFormed := by
  cases h with
  | obj hnodup hvalues =>
    refine .obj (Keyed.nodup_keys_put hnodup key value) fun m hm => ?_
    rcases Keyed.eq_or_mem_of_mem_put hm with rfl | hm
    · exact hvalue
    · exact hvalues m hm

/-- The functions that read values, items and members read well-formed values with some fuel. -/
structure ReadsWell (fuel : Nat) : Prop where
  value : ∀ depth s, WellRead (readValue fuel depth s)
  items : ∀ depth acc s, (arr acc).WellFormed → WellRead (readItems fuel depth acc s)
  members : ∀ depth acc s, (obj acc).WellFormed → WellRead (readMembers fuel depth acc s)
  member : ∀ depth acc s, (obj acc).WellFormed → WellRead (readMember fuel depth acc s)

namespace ReadsWell

/-- Without fuel nothing is read. -/
theorem zero : ReadsWell 0 where
  value _ _ := by
    unfold readValue
    exact .error _
  items _ _ _ _ := by
    unfold readItems
    exact .error _
  members _ _ _ _ := by
    unfold readMembers
    exact .error _
  member _ _ _ _ := by
    unfold readMember
    exact .error _

variable {fuel : Nat}

/-- A value is read well, if what is inside of it is. -/
theorem readValue_succ (h : ReadsWell fuel) (depth : Nat) (s : Bytes) :
    WellRead (readValue (fuel + 1) depth s) := by
  unfold readValue
  split
  · exact .error _
  · split
    · exact wellRead_readIdent .null _ _
    split
    · exact wellRead_readIdent (.bool true) _ _
    split
    · exact wellRead_readIdent (.bool false) _ _
    split
    · exact wellRead_readNumber true _
    split
    · exact wellRead_readNumber false _
    split
    · refine .bind ?_
      rintro ⟨text, rest⟩ _
      exact .ok (.str text) rest
    split
    · split
      · exact .error _
      · exact h.items _ _ _ (.arr fun _ hj => absurd hj List.not_mem_nil)
    split
    · split
      · exact .error _
      · exact h.members _ _ _ (.obj List.nodup_nil fun _ hm => absurd hm List.not_mem_nil)
    · exact .error _

/-- Items are read well, if values and the items behind them are. -/
theorem readItems_succ (h : ReadsWell fuel) (depth : Nat) (acc : List Json) (s : Bytes)
    (hacc : (arr acc).WellFormed) : WellRead (readItems (fuel + 1) depth acc s) := by
  have hitem : ∀ t a, readValue fuel depth t = .ok a →
      WellRead (readItems fuel depth (a.1 :: acc) a.2) := by
    rintro t ⟨item, rest⟩ hread
    have hvalue := h.value depth t item rest hread
    cases hacc with
    | arr hitems => exact h.items _ _ _ (.arr (List.forall_mem_cons.mpr ⟨hvalue, hitems⟩))
  unfold readItems
  split
  · exact .error _
  · split
    · cases hacc with
      | arr hitems =>
        exact .ok (.arr fun j hj => hitems j (List.mem_reverse.mp hj)) _
    split
    · rename_i hempty
      obtain rfl := List.isEmpty_iff.mp hempty
      exact .bind (hitem _)
    split
    · split
      · exact .error _
      · split
        · exact .error _
        · exact .bind (hitem _)
    · exact .error _

/-- Members are read well, if a member and those behind it are. -/
theorem readMembers_succ (h : ReadsWell fuel) (depth : Nat) (acc : Members) (s : Bytes)
    (hacc : (obj acc).WellFormed) : WellRead (readMembers (fuel + 1) depth acc s) := by
  unfold readMembers
  split
  · exact .error _
  · split
    · exact .ok hacc _
    split
    · split
      · exact h.member _ _ _ hacc
      · exact .error _
    split
    · split
      · exact .error _
      · split
        · exact h.member _ _ _ hacc
        · split
          · exact .error _
          · exact .error _
    · exact .error _

/-- A member is read well with those behind it, if its value and they are. -/
theorem readMember_succ (h : ReadsWell fuel) (depth : Nat) (acc : Members) (s : Bytes)
    (hacc : (obj acc).WellFormed) : WellRead (readMember (fuel + 1) depth acc s) := by
  unfold readMember
  refine .bind ?_
  rintro ⟨key, rest⟩ _
  dsimp only
  split
  · exact .error _
  · split
    · refine .bind ?_
      rintro ⟨value, rest⟩ hread
      exact h.members _ _ _ (hacc.put (h.value _ _ value rest hread) key)
    · exact .error _

/-- With any fuel well-formed values are read. -/
theorem all (fuel : Nat) : ReadsWell fuel := by
  induction fuel with
  | zero => exact zero
  | succ fuel ih =>
    exact ⟨ih.readValue_succ, ih.readItems_succ, ih.readMembers_succ, ih.readMember_succ⟩

end ReadsWell

/-! ### Whole texts -/

/-- A whole text is read as one value, with nothing but spaces behind it. -/
theorem readWhole_eq_ok_iff {limit : Nat} {s : Bytes} {j : Json} :
    readWhole limit s = .ok j ↔
      ∃ rest, readValue (2 * s.length + 2) limit s = .ok (j, rest) ∧ skipSpace rest = [] := by
  unfold readWhole
  rw [bind_eq_ok_iff]
  constructor
  · rintro ⟨⟨value, rest⟩, hread, hrest⟩
    dsimp only at hrest
    split at hrest
    · rename_i hnil
      cases hrest
      exact ⟨rest, hread, hnil⟩
    · cases hrest
  · rintro ⟨rest, hread, hnil⟩
    refine ⟨(j, rest), hread, ?_⟩
    dsimp only
    rw [hnil]

/-- What is read from bytes is what the whole of them stands for. -/
theorem read_eq_ok_iff {limit : Nat} {s : Bytes} {j : Json} :
    read limit s = .ok j ↔ readWhole limit s = .ok j := by
  unfold read
  cases readWhole limit s with
  | ok value => exact Iff.of_eq (by rw [Except.ok.injEq, Except.ok.injEq])
  | error fault => exact ⟨nofun, nofun⟩

/-- The value that is read from the bytes of a text is well formed. -/
theorem wellFormed_of_read {limit : Nat} {s : Bytes} {j : Json} (h : read limit s = .ok j) :
    j.WellFormed := by
  obtain ⟨rest, hread, -⟩ := readWhole_eq_ok_iff.mp (read_eq_ok_iff.mp h)
  exact (ReadsWell.all _).value limit s j rest hread

/-- The value that is read from a text is well formed. -/
theorem wellFormed_of_readText {s : String} {j : Json} (h : readText s = .ok j) : j.WellFormed :=
  wellFormed_of_read h

end DiagramScene.Json
