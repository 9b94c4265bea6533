import Mathlib
import DiagramScene.Proofs.Json.Schema

/-!
# Records are read alike in any order of their members

Members are read one after the other, and each reading takes a record to a record.  That the order
does not count is a fact about the table: a record is made of parts, and reading a value with a
field is either refused whatever the record, or puts one and the same part into the place of the
field (`Field.Puts`).  It is enough to look at each field once.

So two fields can be read in either order (`Partwise.read_comm`), and a record can be read from its
members in any order (`Partwise.decodeMembers_perm`).  Which error is reported first may depend on
the order, but not whether there is one.
-/

namespace DiagramScene.Json

open scoped List

variable {σ α : Type}

/-- The parts of a record, each with its type. -/
abbrev Parts := List ((β : Type) × β)

/-- Reading a value with the field at a place of a table is refused for every record, or puts a part
into this place of every record. -/
structure Field.Puts (f : Json.Field σ) (parts : σ → Parts) (place : Nat) : Prop where
  read : ∀ j, (∃ err, ∀ s, f.read j s = .error err) ∨
    ∃ part, ∀ s, ∃ t, f.read j s = .ok t ∧ parts t = (parts s).set place part

/-- A field puts its part if setting its value does. -/
theorem Field.Puts.of_set {f : Json.Field σ} {parts : σ → Parts} {place : Nat} {c : Codec α}
    {set : α → σ → σ} (hread : ∀ j s, f.read j s = (c.decode j).map (set · s))
    (hset : ∀ a s, parts (set a s) = (parts s).set place ⟨α, a⟩) : f.Puts parts place where
  read := by
    intro j
    cases hvalue : c.decode j with
    | error err =>
      refine .inl ⟨err, fun s => ?_⟩
      rw [hread, hvalue]
      rfl
    | ok a =>
      refine .inr ⟨⟨α, a⟩, fun s => ⟨set a s, ?_, hset a s⟩⟩
      rw [hread, hvalue]
      rfl

namespace Schema

/-- A record is made of parts, and every field puts the one at its place. -/
structure Partwise (schema : Schema σ) (parts : σ → Parts) : Prop where
  injective : Function.Injective parts
  puts : ∀ p ∈ schema.fields.zipIdx, p.1.Puts parts p.2

variable {schema : Schema σ} {parts : σ → Parts} {f g : Json.Field σ} {j j' : Json} {s t : σ}
  {key key' : String} {ms ms' : Members}

namespace Partwise

/-- A field has a place. -/
theorem exists_puts (h : schema.Partwise parts) (hf : f ∈ schema.fields) :
    ∃ place, f.Puts parts place ∧ schema.fields[place]? = some f := by
  obtain ⟨place, hplace, rfl⟩ := List.getElem_of_mem hf
  have hget : schema.fields[place]? = some schema.fields[place] := List.getElem?_eq_getElem hplace
  have hmem : (schema.fields[place], place) ∈ schema.fields.zipIdx :=
    List.mem_zipIdx_iff_getElem?.mpr hget
  exact ⟨place, h.puts _ hmem, hget⟩

/-- What two fields read can be read in the other order. -/
theorem read_of_read (h : schema.Partwise parts) (hf : f ∈ schema.fields) (hg : g ∈ schema.fields)
    (hkey : f.key ≠ g.key) (hread : f.read j s >>= g.read j' = .ok t) :
    g.read j' s >>= f.read j = .ok t := by
  obtain ⟨place, hputs, hplace⟩ := h.exists_puts hf
  obtain ⟨place', hputs', hplace'⟩ := h.exists_puts hg
  have hne : place ≠ place' := by
    rintro rfl
    exact hkey (congrArg Field.key (Option.some.inj (hplace.symm.trans hplace')))
  obtain ⟨s₁, hs₁, ht⟩ := bind_eq_ok_iff.mp hread
  obtain ⟨err, herr⟩ | ⟨part, hpart⟩ := hputs.read j
  · exact nomatch (herr s).symm.trans hs₁
  obtain ⟨err, herr⟩ | ⟨part', hpart'⟩ := hputs'.read j'
  · exact nomatch (herr s₁).symm.trans ht
  obtain ⟨u, hu, hparts⟩ := hpart s
  obtain rfl := Except.ok.inj (hs₁.symm.trans hu)
  obtain ⟨u, hu, hparts'⟩ := hpart' s₁
  obtain rfl := Except.ok.inj (ht.symm.trans hu)
  obtain ⟨s₂, hs₂, hparts₂⟩ := hpart' s
  obtain ⟨u, hu, hparts₃⟩ := hpart s₂
  have hsame : parts u = parts t := by
    rw [hparts₃, hparts₂, hparts', hparts, List.set_comm _ _ (Ne.symm hne)]
  exact bind_eq_ok_iff.mpr ⟨s₂, hs₂, hu.trans (congrArg _ (h.injective hsame))⟩

/-- Two members with different keys can be read in the other order. -/
theorem readMember_of_readMember (h : schema.Partwise parts) (hignore : schema.unknown = .ignore)
    (hkey : key ≠ key')
    (hread : (schema.readMember s key j >>= fun s => schema.readMember s key' j') = .ok t) :
    (schema.readMember s key' j' >>= fun s => schema.readMember s key j) = .ok t := by
  have hfield {key : String} {f : Json.Field σ} (hf : schema.field? key = some f) :
      f ∈ schema.fields ∧ f.key = key :=
    ⟨List.mem_of_find?_eq_some hf, by simpa using List.find?_some hf⟩
  unfold readMember at hread ⊢
  rw [hignore] at hread ⊢
  -- A member without a field is skipped, so only two members with fields change places.
  cases hf : schema.field? key with
  | none =>
    rw [hf] at hread
    cases hg : schema.field? key' with
    | none => rw [hg] at hread; exact hread
    | some g =>
      rw [hg] at hread
      exact bind_eq_ok_iff.mpr ⟨t, hread, rfl⟩
  | some f =>
    rw [hf] at hread
    cases hg : schema.field? key' with
    | none =>
      rw [hg] at hread
      obtain ⟨s₁, hs₁, ht⟩ := bind_eq_ok_iff.mp hread
      exact hs₁.trans ht
    | some g =>
      rw [hg] at hread
      obtain ⟨hmem, hfkey⟩ := hfield hf
      obtain ⟨hmem', hgkey⟩ := hfield hg
      exact h.read_of_read hmem hmem' (by rw [hfkey, hgkey]; exact hkey) hread

/-- What is read of members is read of them in another order. -/
theorem foldlM_perm (h : schema.Partwise parts) (hignore : schema.unknown = .ignore)
    (hperm : ms ~ ms') (hkeys : (Keyed.keys ms).Nodup)
    (hread : ms.foldlM (fun s m => schema.readMember s m.1 m.2) s = .ok t) :
    ms'.foldlM (fun s m => schema.readMember s m.1 m.2) s = .ok t := by
  induction hperm generalizing s with
  | nil => exact hread
  | cons m _ ih =>
    obtain ⟨s₁, hs₁, hread⟩ := bind_eq_ok_iff.mp hread
    exact bind_eq_ok_iff.mpr ⟨s₁, hs₁, ih (List.nodup_cons.mp hkeys).2 hread⟩
  | swap m m' ms =>
    have hne : m'.1 ≠ m.1 := by
      intro heq
      rw [Keyed.keys_cons, Keyed.keys_cons, heq] at hkeys
      exact (List.nodup_cons.mp hkeys).1 (List.mem_cons_self ..)
    obtain ⟨s₁, hs₁, hread⟩ := bind_eq_ok_iff.mp hread
    obtain ⟨s₂, hs₂, hread⟩ := bind_eq_ok_iff.mp hread
    have hswapped := h.readMember_of_readMember hignore hne (bind_eq_ok_iff.mpr ⟨s₁, hs₁, hs₂⟩)
    obtain ⟨s₃, hs₃, hs₂⟩ := bind_eq_ok_iff.mp hswapped
    exact bind_eq_ok_iff.mpr ⟨s₃, hs₃, bind_eq_ok_iff.mpr ⟨s₂, hs₂, hread⟩⟩
  | trans hperm _ ih ih' =>
    exact ih' ((hperm.map Prod.fst).nodup_iff.mp hkeys) (ih hkeys hread)

/-- A record is read alike from its members in any order. -/
theorem decodeMembers_perm (h : schema.Partwise parts) (hignore : schema.unknown = .ignore)
    (hperm : ms ~ ms') (hkeys : (Keyed.keys ms).Nodup) (t : σ) :
    schema.decodeMembers ms = .ok t ↔ schema.decodeMembers ms' = .ok t := by
  have hmissing : schema.missing? ms' = schema.missing? ms := by
    have hcontains (key : String) : Keyed.contains ms' key = Keyed.contains ms key := by
      rw [Keyed.contains, Keyed.contains, hperm.any_eq]
    simp only [missing?, hcontains]
  have hkeys' : (Keyed.keys ms').Nodup := (hperm.map Prod.fst).nodup_iff.mp hkeys
  unfold decodeMembers
  rw [hmissing, bind_eq_ok_iff, bind_eq_ok_iff]
  constructor
  · rintro ⟨s, hs, ht⟩
    exact ⟨s, h.foldlM_perm hignore hperm hkeys hs, ht⟩
  · rintro ⟨s, hs, ht⟩
    exact ⟨s, h.foldlM_perm hignore hperm.symm hkeys' hs, ht⟩

end Partwise

end Schema

end DiagramScene.Json
