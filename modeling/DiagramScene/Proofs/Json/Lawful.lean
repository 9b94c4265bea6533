import Mathlib
import DiagramScene.Json.Codec
import DiagramScene.Proofs.Keyed
import DiagramScene.Proofs.Number.Finite
import DiagramScene.Proofs.Reports

/-!
# Lawful codecs

A codec need not write every value so that it can be read again: a floating point number that is not
finite becomes null.  `Codec.Lawful` is therefore about the values that satisfy a predicate.  The
codec reads these back from what it writes, and whatever it reads satisfies the predicate.

A value that may be absent is written as null if it is, so a codec that itself writes null cannot be
made optional.  `Codec.LawfulNonNull` is the law of those that can.
-/

namespace DiagramScene.Json

/-- A value as JSON has it: the numbers are in range, and the keys of an object are distinct.  No
others are read from a text (`wellFormed_of_readText`). -/
inductive WellFormed : Json → Prop
  | null : WellFormed .null
  | bool (b : Bool) : WellFormed (.bool b)
  | num {n : Number} (inRange : n.InRange) : WellFormed (.num n)
  | str (s : String) : WellFormed (.str s)
  | arr {items : List Json} (items_wellFormed : ∀ j ∈ items, WellFormed j) :
    WellFormed (.arr items)
  | obj {members : Members} (keys_nodup : (Keyed.keys members).Nodup)
    (values_wellFormed : ∀ m ∈ members, WellFormed m.2) : WellFormed (.obj members)

namespace WellFormed

variable {ms : Members}

/-- The keys of an object are distinct. -/
theorem keys_nodup (h : WellFormed (.obj ms)) : (Keyed.keys ms).Nodup := by
  cases h with
  | obj hkeys _ => exact hkeys

/-- The value of a key of an object is well-formed. -/
theorem get? (h : WellFormed (.obj ms)) {key : String} {v : Json}
    (hv : Keyed.get? ms key = some v) : v.WellFormed := by
  cases h with
  | obj _ hvalues => exact hvalues (key, v) (Keyed.mem_of_get? hv)

end WellFormed

/-! ### Reading step by step -/

/-- A reader with a function after it succeeds if the reader does. -/
theorem decoded_map_eq_ok {α β : Type} {x : Decoded α} {f : α → β} {b : β} :
    x.map f = .ok b ↔ ∃ a, x = .ok a ∧ f a = b := by
  cases x with
  | error e => exact ⟨nofun, fun ⟨_, h, _⟩ => nomatch h⟩
  | ok a => exact ⟨fun h => ⟨a, rfl, Except.ok.inj h⟩, fun ⟨_, rfl, h⟩ => congrArg _ h⟩

namespace Codec

variable {α : Type}

/-- The codec reads back the valid values that it writes, and reads no others. -/
structure Lawful (c : Codec α) (Valid : α → Prop) : Prop where
  /-- A valid value is read back. -/
  decode_encode : ∀ {a}, Valid a → c.decode (c.encode a) = .ok a
  /-- A value that was read is valid. -/
  valid_of_decode : ∀ {j a}, WellFormed j → c.decode j = .ok a → Valid a

/-- The codec is lawful and writes no valid value as null. -/
structure LawfulNonNull (c : Codec α) (Valid : α → Prop) : Prop extends Lawful c Valid where
  encode_ne_null : ∀ {a}, Valid a → c.encode a ≠ .null

/-! ### Plain values -/

/-- A finite number is written as itself. -/
theorem float_encode {x : Float} (hx : x.isFinite = true) : float.encode x = Json.float x :=
  if_pos hx

/-- The floating point numbers that can be written are the finite ones. -/
theorem float_lawful : float.LawfulNonNull fun x => x.isFinite = true where
  decode_encode := by
    intro x hx
    rw [float_encode hx]
    rfl
  valid_of_decode := by
    intro j x hj h
    cases hj with
    | num inRange =>
      rw [← Except.ok.inj h]
      exact inRange.isFinite_toFloat
    | null | bool | str | arr | obj => exact nomatch h
  encode_ne_null := by
    intro x hx
    rw [float_encode hx]
    exact nofun

/-- All signed integers can be written. -/
theorem int64_lawful : int64.LawfulNonNull fun _ => True where
  decode_encode := by
    intro n _
    have hrange : -0x8000000000000000 ≤ n.toInt ∧ n.toInt ≤ 0x7fffffffffffffff :=
      ⟨n.le_toInt, by have := n.toInt_lt; omega⟩
    change (decodeInt _ _ _ (.num (.int n.toInt))).map Int64.ofInt = .ok n
    rw [decodeInt, if_pos hrange]
    exact congrArg _ n.ofInt_toInt
  valid_of_decode _ _ := True.intro
  encode_ne_null _ := nofun

/-- All unsigned integers of 32 bits can be written. -/
theorem uint32_lawful : uint32.LawfulNonNull fun _ => True where
  decode_encode := by
    intro n _
    have hrange : (0 : Int) ≤ n.toNat ∧ (n.toNat : Int) ≤ 0xffffffff := by
      have := n.toNat_lt
      omega
    change (decodeInt _ _ _ (.num (.int n.toNat))).map (fun n => UInt32.ofNat n.toNat) = .ok n
    rw [decodeInt, if_pos hrange]
    exact congrArg _ n.ofNat_toNat
  valid_of_decode _ _ := True.intro
  encode_ne_null _ := nofun

/-- All unsigned integers of eight bits can be written. -/
theorem uint8_lawful : uint8.LawfulNonNull fun _ => True where
  decode_encode := by
    intro n _
    have hrange : (0 : Int) ≤ n.toNat ∧ (n.toNat : Int) ≤ 0xff := by
      have := n.toNat_lt
      omega
    change (decodeInt _ _ _ (.num (.int n.toNat))).map (fun n => UInt8.ofNat n.toNat) = .ok n
    rw [decodeInt, if_pos hrange]
    exact congrArg _ n.ofNat_toNat
  valid_of_decode _ _ := True.intro
  encode_ne_null _ := nofun

/-- All truth values can be written. -/
theorem bool_lawful : bool.LawfulNonNull fun _ => True where
  decode_encode _ := rfl
  valid_of_decode _ _ := True.intro
  encode_ne_null _ := nofun

/-- All strings can be written. -/
theorem text_lawful : text.LawfulNonNull fun _ => True where
  decode_encode _ := rfl
  valid_of_decode _ _ := True.intro
  encode_ne_null _ := nofun

/-- Values with names can be written if each is the value of its name. -/
theorem named_lawful {values : List (String × α)} {nameOf : α → String}
    (h : ∀ a, values.lookup (nameOf a) = some a) :
    (named values nameOf).LawfulNonNull fun _ => True where
  decode_encode := by
    intro a _
    change valueNamed values (nameOf a) = .ok a
    rw [valueNamed, h a]
  valid_of_decode _ _ := True.intro
  encode_ne_null _ := nofun

/-! ### Compound values -/

variable {c : Codec α} {Valid : α → Prop}

/-- Values that may be absent can be written if those that are there can. -/
theorem LawfulNonNull.option (h : c.LawfulNonNull Valid) :
    c.option.Lawful fun o => ∀ a ∈ o, Valid a where
  decode_encode := by
    intro o ho
    cases o with
    | none => rfl
    | some a =>
      have ha : Valid a := ho a rfl
      have hread : c.option.decode (c.encode a) = (c.decode (c.encode a)).map some := by
        have hne := h.encode_ne_null ha
        simp only [Codec.option]
      exact hread.trans (by rw [h.decode_encode ha]; rfl)
  valid_of_decode := by
    intro j o hj ho a ha
    simp only [Codec.option] at ho
    split at ho
    · rw [← Except.ok.inj ho] at ha
      exact nomatch ha
    · obtain ⟨b, hb, rfl⟩ := decoded_map_eq_ok.mp ho
      rw [← Option.some.inj ha]
      exact h.valid_of_decode hj hb

/-- Lists can be written if their items can. -/
theorem Lawful.list (h : c.Lawful Valid) : (list c).LawfulNonNull fun xs => ∀ x ∈ xs, Valid x where
  decode_encode := by
    intro xs hxs
    change (xs.map c.encode).mapM c.decode = .ok xs
    induction xs with
    | nil => rfl
    | cons x xs ih =>
      rw [List.forall_mem_cons] at hxs
      rw [List.map_cons, List.mapM_cons, h.decode_encode hxs.1, ih hxs.2]
      rfl
  valid_of_decode := by
    intro j ys hj h'
    cases hj with
    | @arr items hitems =>
      change items.mapM c.decode = .ok ys at h'
      induction items generalizing ys with
      | nil =>
        obtain rfl : [] = ys := Except.ok.inj h'
        exact nofun
      | cons x xs ih =>
        rw [List.forall_mem_cons] at hitems
        rw [List.mapM_cons] at h'
        obtain ⟨y, hy, h'⟩ := bind_eq_ok_iff.mp h'
        obtain ⟨ys', hys, h'⟩ := bind_eq_ok_iff.mp h'
        obtain rfl : y :: ys' = ys := Except.ok.inj h'
        exact List.forall_mem_cons.mpr ⟨h.valid_of_decode hitems.1 hy, ih hitems.2 hys⟩
    | null | bool | num | str | obj => exact nomatch h'
  encode_ne_null _ := nofun

/-- Pairs of numbers can be written if both are finite. -/
theorem floatPair_lawful :
    floatPair.LawfulNonNull fun p => p.1.isFinite = true ∧ p.2.isFinite = true where
  decode_encode := by
    intro p hp
    simp [floatPair, floatPair.first, floatPair.second, float_lawful.decode_encode hp.1,
      float_lawful.decode_encode hp.2, bind, Except.bind]
  valid_of_decode := by
    intro j p hj h
    cases hj with
    | @arr items hitems =>
      obtain ⟨a, ha, h⟩ := bind_eq_ok_iff.mp h
      obtain ⟨b, hb, h⟩ := bind_eq_ok_iff.mp h
      split at h
      · cases h
      · obtain rfl : (a, b) = p := Except.ok.inj h
        cases items with
        | nil => cases ha
        | cons x items =>
          cases items with
          | nil => cases hb
          | cons y rest =>
            exact ⟨float_lawful.valid_of_decode (hitems x (by simp)) ha,
              float_lawful.valid_of_decode (hitems y (by simp)) hb⟩
    | null | bool | num | str | obj => cases h
  encode_ne_null _ h := by cases h

end Codec

end DiagramScene.Json
