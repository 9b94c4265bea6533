import Mathlib
import DiagramScene.Proofs.Json.Schema

/-!
# The fields of a record do not interfere

In an independent table, reading a field changes what that field writes and nothing else.  It is
enough to look at each field once: `Field.Owns` compares all that a record writes before and after.

So what a field writes of a record that was read is decided by the member with its key alone.  If
there is none, the field writes what it writes of the start value (`Independent.write_of_notMem`),
and otherwise what it wrote when that member had been read (`Independent.write_of_mem`).
-/

namespace DiagramScene.Json

variable {σ α : Type}

namespace Schema

/-- What the fields write of a record, in the order of the table. -/
def written (schema : Schema σ) (s : σ) : List (Option Json) :=
  schema.fields.map (·.write s)

end Schema

/-- Reading the field at a place of a table changes what is written there, and nothing else. -/
structure Field.Owns (f : Json.Field σ) (schema : Schema σ) (place : Nat) : Prop where
  read : ∀ {j s t}, f.read j s = .ok t →
    schema.written t = (schema.written s).set place (f.write t)

/-- A field owns its place if setting its value changes what is written there only. -/
theorem Field.Owns.of_set {f : Json.Field σ} {schema : Schema σ} {place : Nat} {c : Codec α}
    {set : α → σ → σ} (hread : ∀ j s, f.read j s = (c.decode j).map (set · s))
    (hset : ∀ a s, schema.written (set a s) = (schema.written s).set place (f.write (set a s))) :
    f.Owns schema place where
  read := by
    intro j s t ht
    rw [hread] at ht
    obtain ⟨a, -, rfl⟩ := decoded_map_eq_ok.mp ht
    exact hset a s

namespace Schema

variable {schema : Schema σ} {f g : Json.Field σ} {s t : σ} {ms : Members} {j : Json}

/-- Every field owns its place. -/
def Independent (schema : Schema σ) : Prop :=
  ∀ p ∈ schema.fields.zipIdx, p.1.Owns schema p.2

namespace Independent

/-- Reading a field changes nothing that another field writes. -/
theorem write_eq (h : schema.Independent) (hf : f ∈ schema.fields) (hg : g ∈ schema.fields)
    (hkey : f.key ≠ g.key) (hread : f.read j s = .ok t) : g.write t = g.write s := by
  obtain ⟨place, hplace, rfl⟩ := List.getElem_of_mem hf
  obtain ⟨place', hplace', rfl⟩ := List.getElem_of_mem hg
  have hne : place ≠ place' := by
    rintro rfl
    exact hkey rfl
  have hmem : (schema.fields[place], place) ∈ schema.fields.zipIdx :=
    List.mem_zipIdx_iff_getElem?.mpr (List.getElem?_eq_getElem hplace)
  have hwritten := congrArg (fun values => values[place']?) ((h _ hmem).read hread)
  simpa [written, List.getElem?_set, hne, hplace'] using hwritten

/-- Reading a member with another key changes nothing that a field writes. -/
theorem write_readMember (h : schema.Independent) (hignore : schema.unknown = .ignore)
    (hg : g ∈ schema.fields) {key : String} (hkey : key ≠ g.key)
    (hread : schema.readMember s key j = .ok t) : g.write t = g.write s := by
  unfold readMember at hread
  split at hread
  · rename_i f hf
    have hfkey : f.key = key := by simpa using List.find?_some hf
    exact h.write_eq (List.mem_of_find?_eq_some hf) hg (hfkey ▸ hkey) hread
  · rw [hignore] at hread
    exact Except.ok.inj hread ▸ rfl

/-- Reading members with other keys changes nothing that a field writes. -/
theorem write_foldlM (h : schema.Independent) (hignore : schema.unknown = .ignore)
    (hg : g ∈ schema.fields) (hkey : g.key ∉ Keyed.keys ms)
    (hread : ms.foldlM (fun s m => schema.readMember s m.1 m.2) s = .ok t) :
    g.write t = g.write s := by
  induction ms generalizing s with
  | nil => exact Except.ok.inj hread ▸ rfl
  | cons m ms ih =>
    rw [Keyed.keys_cons, List.mem_cons, not_or] at hkey
    rw [List.foldlM_cons] at hread
    obtain ⟨s', hs', hread⟩ := bind_eq_ok_iff.mp hread
    rw [ih hkey.2 hread, h.write_readMember hignore hg (Ne.symm hkey.1) hs']

end Independent

/-- The members of a record are read one after the other. -/
theorem foldlM_of_decodeMembers (ht : schema.decodeMembers ms = .ok t) :
    ms.foldlM (fun s m => schema.readMember s m.1 m.2) schema.start = .ok t := by
  obtain ⟨s, hs, ht⟩ := bind_eq_ok_iff.mp ht
  split at ht
  · exact nomatch ht
  · exact Except.ok.inj ht ▸ hs

/-- The members of a record that keeps no others are those of its fields. -/
theorem encodeMembers_eq_writtenMembers (hignore : schema.unknown = .ignore) (s : σ) :
    schema.encodeMembers s = writtenMembers (·.write s) schema.fields := by
  simp only [encodeMembers, hignore]
  rfl

namespace Independent

/-- A field without a member writes what it writes of the start value. -/
theorem write_of_notMem (h : schema.Independent) (hignore : schema.unknown = .ignore)
    (hf : f ∈ schema.fields) (hkey : f.key ∉ Keyed.keys ms) (ht : schema.decodeMembers ms = .ok t) :
    f.write t = f.write schema.start :=
  h.write_foldlM hignore hf hkey (foldlM_of_decodeMembers ht)

/-- A field with a member writes what it wrote when the member had been read. -/
theorem write_of_mem (h : schema.Independent) (hignore : schema.unknown = .ignore)
    (hkeys : schema.keys.Nodup) (hf : f ∈ schema.fields) (hms : (Keyed.keys ms).Nodup)
    (hj : (f.key, j) ∈ ms) (ht : schema.decodeMembers ms = .ok t) :
    ∃ s s', f.read j s = .ok s' ∧ f.write t = f.write s' := by
  have hread := foldlM_of_decodeMembers ht
  obtain ⟨before, after, rfl⟩ := List.append_of_mem hj
  rw [Keyed.keys_append, Keyed.keys_cons] at hms
  have hafter : f.key ∉ Keyed.keys after := (List.nodup_cons.mp hms.of_append_right).1
  rw [List.foldlM_append] at hread
  obtain ⟨s, -, hread⟩ := bind_eq_ok_iff.mp hread
  rw [List.foldlM_cons] at hread
  obtain ⟨s', hs', hread⟩ := bind_eq_ok_iff.mp hread
  refine ⟨s, s', ?_, h.write_foldlM hignore hf hafter hread⟩
  simpa only [readMember, field?_key hkeys hf] using hs'

/-- A field that writes nothing unless it was read writes something exactly if it has a member. -/
theorem isSome_write (h : schema.Independent) (hignore : schema.unknown = .ignore)
    (hkeys : schema.keys.Nodup) (hf : f ∈ schema.fields) (hms : (Keyed.keys ms).Nodup)
    (hnull : ∀ m ∈ ms, m.2 ≠ .null) (hstart : f.write schema.start = none)
    (hsome : ∀ {j s s'}, j ≠ .null → f.read j s = .ok s' → (f.write s').isSome)
    (ht : schema.decodeMembers ms = .ok t) : (f.write t).isSome = true ↔ f.key ∈ Keyed.keys ms := by
  by_cases hkey : f.key ∈ Keyed.keys ms
  · obtain ⟨j, hj⟩ := Keyed.mem_keys_iff.mp hkey
    have hmem := Keyed.mem_of_get? hj
    obtain ⟨s, s', hread, hwrite⟩ := h.write_of_mem hignore hkeys hf hms hmem ht
    rw [hwrite]
    exact ⟨fun _ => hkey, fun _ => hsome (hnull _ hmem) hread⟩
  · rw [h.write_of_notMem hignore hf hkey ht, hstart]
    exact ⟨nofun, fun hmem => absurd hmem hkey⟩

/-- What other fields write stays when a field is read. -/
theorem mem_encodeMembers_of_read (h : schema.Independent) (hignore : schema.unknown = .ignore)
    (hf : f ∈ schema.fields) (hread : f.read j s = .ok t) {m : String × Json} (hkey : f.key ≠ m.1)
    (hm : m ∈ schema.encodeMembers s) : m ∈ schema.encodeMembers t := by
  rw [encodeMembers_eq_writtenMembers hignore] at hm ⊢
  obtain ⟨g, hg, hwrite⟩ := List.mem_filterMap.mp hm
  refine List.mem_filterMap.mpr ⟨g, hg, ?_⟩
  obtain ⟨value, -, rfl⟩ := Option.map_eq_some_iff.mp hwrite
  have hsame := h.write_eq hf hg hkey hread
  simpa only [hsame] using hwrite

/-- What is written of the start value is written of a record that was read without that member. -/
theorem mem_encodeMembers_of_notMem (h : schema.Independent) (hignore : schema.unknown = .ignore)
    {m : String × Json} (hm : m ∈ schema.encodeMembers schema.start) (hkey : m.1 ∉ Keyed.keys ms)
    (ht : schema.decodeMembers ms = .ok t) : m ∈ schema.encodeMembers t := by
  rw [encodeMembers_eq_writtenMembers hignore] at hm ⊢
  obtain ⟨f, hf, hwrite⟩ := List.mem_filterMap.mp hm
  refine List.mem_filterMap.mpr ⟨f, hf, ?_⟩
  obtain ⟨value, -, rfl⟩ := Option.map_eq_some_iff.mp hwrite
  have hsame := h.write_of_notMem hignore hf hkey ht
  simpa only [hsame] using hwrite

end Independent

end Schema

/-- A field that is not written if its value is absent is written when a value was read. -/
theorem Field.isSome_write_omitted {key : String} {c : Codec α} {get : σ → Option α}
    {set : Option α → σ → σ} (hget : ∀ o s, get (set o s) = o) {j : Json} {s s' : σ}
    (hj : j ≠ .null) (h : (Field.omitted key c get set).read j s = .ok s') :
    ((Field.omitted key c get set).write s').isSome := by
  obtain ⟨o, ho, rfl⟩ := decoded_map_eq_ok.mp h
  simp only [Codec.option] at ho
  obtain ⟨a, -, rfl⟩ := decoded_map_eq_ok.mp ho
  change ((get (set (some a) s)).map c.encode).isSome
  rw [hget]
  rfl

end DiagramScene.Json
