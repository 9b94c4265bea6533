import Mathlib
import DiagramScene.Proofs.Json.Lawful

/-!
# Records are read back

The table of a record drives both directions, so what is proved here is proved once for all records.
`Restores` follows the fields of a table: reading what one record wrote, field by field, takes a
start value to a result.  The lemmas that extend it are one for each way to describe a field, and
they hold whether the members that are null are written or left out (`Writes`).

`Field.Keeps` is the step of the other direction: reading a well-formed value into a record keeps an
invariant.  A table all of whose fields keep an invariant reads only records that satisfy it.
-/

namespace DiagramScene.Json

variable {σ α : Type}

/-! ### Reading what was written -/

/-- The written values of a record: as its fields write them, or without those that are null. -/
def Writes (w : Json.Field σ → Option Json) (s : σ) : Prop :=
  ∀ f, w f = f.write s ∨ f.write s = some .null ∧ w f = none

/-- Everything that the fields write. -/
theorem writes_all (s : σ) : Writes (fun f => f.write s) s := fun _ => .inl rfl

/-- What the fields write, without what is null. -/
theorem writes_present (s : σ) : Writes (fun f => (f.write s).filter (!·.isNull)) s := by
  intro f
  dsimp only
  cases f.write s with
  | none => exact .inl rfl
  | some j =>
    cases j with
    | null => exact .inr ⟨rfl, rfl⟩
    | bool | num | str | arr | obj => exact .inl rfl

/-- A value that is not null is written. -/
theorem Writes.eq_some {w : Json.Field σ → Option Json} {s : σ} (h : Writes w s)
    {f : Json.Field σ} {j : Json} (hf : f.write s = some j) (hj : j ≠ .null) : w f = some j := by
  rcases h f with hw | ⟨hnull, _⟩
  · rw [hw, hf]
  · exact absurd (Option.some.inj (hf.symm.trans hnull)) hj

/-- A value that the field does not write is not written. -/
theorem Writes.eq_none {w : Json.Field σ → Option Json} {s : σ} (h : Writes w s)
    {f : Json.Field σ} (hf : f.write s = none) : w f = none := by
  rcases h f with hw | ⟨_, hw⟩
  · rw [hw, hf]
  · exact hw

/-- Reads a field from its written value, if there is one. -/
def readWritten (w : Json.Field σ → Option Json) (acc : σ) (f : Json.Field σ) : Decoded σ :=
  match w f with
  | some j => f.read j acc
  | none => .ok acc

/-- Reading the written values of fields one after the other takes a record to a result. -/
def Restores (w : Json.Field σ → Option Json) (fields : List (Json.Field σ)) (acc t : σ) : Prop :=
  fields.foldlM (readWritten w) acc = .ok t

namespace Restores

variable {w : Json.Field σ → Option Json} {fields : List (Json.Field σ)} {s acc t : σ}
  {key : String} {c : Codec α} {Valid : α → Prop}

/-- Without fields nothing changes. -/
theorem nil : Restores w [] acc acc := rfl

/-- The first field is read, then the others. -/
theorem cons {f : Json.Field σ} {acc' : σ} (h : readWritten w acc f = .ok acc')
    (rest : Restores w fields acc' t) : Restores w (f :: fields) acc t := by
  rw [Restores, List.foldlM_cons, h]
  exact rest

/-- A field whose value is never null is read back. -/
theorem value {f : Json.Field σ} {get : σ → α} {set : α → σ → σ} (hw : Writes w s)
    (hread : ∀ j acc, f.read j acc = (c.decode j).map (set · acc))
    (hwrite : f.write s = some (c.encode (get s))) (hc : c.LawfulNonNull Valid)
    (hvalid : Valid (get s)) (rest : Restores w fields (set (get s) acc) t) :
    Restores w (f :: fields) acc t := by
  refine cons ?_ rest
  rw [readWritten, hw.eq_some hwrite (hc.encode_ne_null hvalid)]
  change f.read (c.encode (get s)) acc = .ok (set (get s) acc)
  rw [hread, hc.decode_encode hvalid]
  rfl

/-- A field with a default is read back. -/
theorem default {get : σ → α} {set : α → σ → σ} (hw : Writes w s) (hc : c.LawfulNonNull Valid)
    (hvalid : Valid (get s)) (rest : Restores w fields (set (get s) acc) t) :
    Restores w (.default key c get set :: fields) acc t :=
  value hw (fun _ _ => rfl) rfl hc hvalid rest

/-- A field that has to be there is read back. -/
theorem required {get : σ → α} {set : α → σ → σ} (hw : Writes w s) (hc : c.LawfulNonNull Valid)
    (hvalid : Valid (get s)) (rest : Restores w fields (set (get s) acc) t) :
    Restores w (.required key c get set :: fields) acc t :=
  value hw (fun _ _ => rfl) rfl hc hvalid rest

/-- A field that is not written if its value is absent is read back, if it was absent before. -/
theorem omitted {get : σ → Option α} {set : Option α → σ → σ} (hw : Writes w s)
    (hc : c.LawfulNonNull Valid) (hvalid : ∀ a ∈ get s, Valid a) (hnone : set none acc = acc)
    (rest : Restores w fields (set (get s) acc) t) :
    Restores w (.omitted key c get set :: fields) acc t := by
  refine cons ?_ rest
  cases hget : get s with
  | none =>
    rw [readWritten, hw.eq_none (by simp [Field.omitted, hget]), hnone]
  | some a =>
    have ha : Valid a := hvalid a hget
    have hwrite : (Field.omitted key c get set).write s = some (c.encode a) := by
      simp [Field.omitted, hget]
    rw [readWritten, hw.eq_some hwrite (hc.encode_ne_null ha)]
    change (c.option.decode (c.option.encode (some a))).map (set · acc) = .ok (set (some a) acc)
    rw [hc.option.decode_encode (by rintro b ⟨⟩; exact ha)]
    rfl

/-- A field that is null if its value is absent is read back, if it was absent before. -/
theorem absentAsNull {f : Json.Field σ} {get : σ → Option α} {set : Option α → σ → σ}
    (hw : Writes w s) (hread : ∀ j acc, f.read j acc = (c.option.decode j).map (set · acc))
    (hwrite : f.write s = some (c.option.encode (get s))) (hc : c.LawfulNonNull Valid)
    (hvalid : ∀ a ∈ get s, Valid a) (hnone : set none acc = acc)
    (rest : Restores w fields (set (get s) acc) t) : Restores w (f :: fields) acc t := by
  refine cons ?_ rest
  rcases hw f with hkept | ⟨hnull, hskip⟩
  · rw [readWritten, hkept, hwrite]
    change f.read (c.option.encode (get s)) acc = .ok (set (get s) acc)
    rw [hread, hc.option.decode_encode hvalid]
    rfl
  · have hget : get s = none := by
      cases hget : get s with
      | none => rfl
      | some a =>
        rw [hwrite, hget] at hnull
        exact absurd (Option.some.inj hnull) (hc.encode_ne_null (hvalid a hget))
    rw [readWritten, hskip, hget, hnone]

/-- A field with a default that is null if its value is absent is read back likewise. -/
theorem optional {get : σ → Option α} {set : Option α → σ → σ} (hw : Writes w s)
    (hc : c.LawfulNonNull Valid) (hvalid : ∀ a ∈ get s, Valid a) (hnone : set none acc = acc)
    (rest : Restores w fields (set (get s) acc) t) :
    Restores w (.optional key c get set :: fields) acc t :=
  absentAsNull hw (fun _ _ => rfl) rfl hc hvalid hnone rest

/-- A field that has to be in an array and is null if its value is absent is read back likewise. -/
theorem nullable {get : σ → Option α} {set : Option α → σ → σ} (hw : Writes w s)
    (hc : c.LawfulNonNull Valid) (hvalid : ∀ a ∈ get s, Valid a) (hnone : set none acc = acc)
    (rest : Restores w fields (set (get s) acc) t) :
    Restores w (.nullable key c get set :: fields) acc t :=
  absentAsNull hw (fun _ _ => rfl) rfl hc hvalid hnone rest

end Restores

/-- The members of the written values. -/
def writtenMembers (w : Json.Field σ → Option Json) (fields : List (Json.Field σ)) : Members :=
  fields.filterMap fun f => (w f).map fun j => (f.key, j)

/-- Leaving out the members that are null leaves out the values that are. -/
theorem filter_writtenMembers (w : Json.Field σ → Option Json) (fields : List (Json.Field σ)) :
    (writtenMembers w fields).filter (!·.2.isNull) =
      writtenMembers (fun f => (w f).filter (!·.isNull)) fields := by
  rw [writtenMembers, List.filter_filterMap]
  refine List.filterMap_congr fun f _ => ?_
  dsimp only
  cases w f with
  | none => rfl
  | some j => cases j <;> rfl

/-- The written values have the keys of their fields, in the order of the fields. -/
theorem keys_writtenMembers_sublist (w : Json.Field σ → Option Json)
    (fields : List (Json.Field σ)) :
    (Keyed.keys (writtenMembers w fields)).Sublist (fields.map (·.key)) := by
  induction fields with
  | nil => exact List.Sublist.refl _
  | cons f fields ih =>
    cases hf : w f with
    | none =>
      have hskip : writtenMembers w (f :: fields) = writtenMembers w fields := by
        simp [writtenMembers, hf]
      rw [hskip]
      exact ih.cons f.key
    | some j =>
      have hhead : writtenMembers w (f :: fields) = (f.key, j) :: writtenMembers w fields := by
        simp [writtenMembers, hf]
      rw [hhead]
      exact ih.cons_cons f.key

/-- What is done with unknown members is kept apart from the fields. -/
structure KeepsApart (get : σ → Members) (set : Members → σ → σ) : Prop where
  get_set : ∀ ms s, get (set ms s) = ms
  set_set : ∀ ms ms' s, set ms (set ms' s) = set ms s
  set_get : ∀ s, set (get s) s = s

namespace Schema

variable {schema : Schema σ} {w : Json.Field σ → Option Json} {s t : σ}

/-- A field is found by its key. -/
theorem field?_key (hkeys : schema.keys.Nodup) {f : Json.Field σ} (hf : f ∈ schema.fields) :
    schema.field? f.key = some f := by
  unfold field?
  unfold keys at hkeys
  generalize schema.fields = fields at hkeys hf
  induction fields with
  | nil => exact absurd hf List.not_mem_nil
  | cons g fields ih =>
    rw [List.map_cons, List.nodup_cons] at hkeys
    rcases List.mem_cons.mp hf with rfl | hf
    · exact List.find?_cons_of_pos (by simp)
    · have hne : g.key ≠ f.key := fun h => hkeys.1 (h ▸ List.mem_map_of_mem hf)
      rw [List.find?_cons_of_neg (by simpa using hne)]
      exact ih hkeys.2 hf

/-- A key that no field has finds no field. -/
theorem field?_eq_none {key : String} (h : key ∉ schema.keys) : schema.field? key = none := by
  refine List.find?_eq_none.mpr fun f hf hkey => h ?_
  rw [← eq_of_beq hkey]
  exact List.mem_map_of_mem hf

/-- Reading the members that were written is reading the fields one after the other. -/
theorem foldlM_readMember_written (hkeys : schema.keys.Nodup) {fields : List (Json.Field σ)}
    (hfields : ∀ f ∈ fields, f ∈ schema.fields) (acc : σ) :
    (writtenMembers w fields).foldlM (fun s m => schema.readMember s m.1 m.2) acc =
      fields.foldlM (readWritten w) acc := by
  induction fields generalizing acc with
  | nil => rfl
  | cons f fields ih =>
    rw [List.forall_mem_cons] at hfields
    cases hf : w f with
    | none =>
      have hmembers : writtenMembers w (f :: fields) = writtenMembers w fields := by
        simp [writtenMembers, hf]
      have hread : readWritten w acc f = .ok acc := by simp only [readWritten, hf]
      rw [hmembers, List.foldlM_cons, hread]
      exact ih hfields.2 acc
    | some j =>
      have hmembers : writtenMembers w (f :: fields) = (f.key, j) :: writtenMembers w fields := by
        simp [writtenMembers, hf]
      have hread : readWritten w acc f = schema.readMember acc f.key j := by
        simp only [readWritten, hf, readMember, field?_key hkeys hfields.1]
      rw [hmembers, List.foldlM_cons, List.foldlM_cons, hread]
      exact bind_congr fun acc' => ih hfields.2 acc'

/-- No field is missing from the members that were written if those that have to be there are. -/
theorem missing?_written (hrequired : ∀ f ∈ schema.fields, f.absence = .error → (w f).isSome)
    (extra : Members) : schema.missing? (writtenMembers w schema.fields ++ extra) = none := by
  rw [missing?, Option.map_eq_none_iff]
  refine List.find?_eq_none.mpr fun f hf hmissing => ?_
  simp only [Bool.and_eq_true, beq_iff_eq, Bool.not_eq_true'] at hmissing
  obtain ⟨j, hj⟩ := Option.isSome_iff_exists.mp (hrequired f hf hmissing.1)
  have hmem : (f.key, j) ∈ writtenMembers w schema.fields :=
    List.mem_filterMap.mpr ⟨f, hf, by simp [hj]⟩
  have hcontains : Keyed.contains (writtenMembers w schema.fields ++ extra) f.key = true := by
    rw [Keyed.contains_iff, Keyed.keys_append]
    exact List.mem_append_left _ (List.mem_map_of_mem hmem)
  exact absurd (hcontains.symm.trans hmissing.2) (by decide)

/-- A record is read back from the members that were written. -/
theorem decodeMembers_written (hkeys : schema.keys.Nodup)
    (hrequired : ∀ f ∈ schema.fields, f.absence = .error → (w f).isSome)
    (h : Restores w schema.fields schema.start t) :
    schema.decodeMembers (writtenMembers w schema.fields) = .ok t := by
  have hmissing := missing?_written hrequired []
  rw [List.append_nil] at hmissing
  rw [decodeMembers, foldlM_readMember_written hkeys fun _ hf => hf, h, hmissing]
  rfl

/-- A record whose fields may all be missing is read back from the members that are not null. -/
theorem decodeMembers_present (hkeys : schema.keys.Nodup)
    (hoptional : ∀ f ∈ schema.fields, f.absence ≠ .error)
    (hmembers : schema.encodeMembers s = writtenMembers (fun f => f.write s) schema.fields)
    (h : Restores (fun f => (f.write s).filter (!·.isNull)) schema.fields schema.start t) :
    schema.decodeMembers ((schema.encodeMembers s).filter (!·.2.isNull)) = .ok t := by
  rw [hmembers, filter_writtenMembers]
  exact decodeMembers_written hkeys (fun f hf herror => absurd herror (hoptional f hf)) h

/-- The members that are no fields are kept in their order. -/
theorem foldlM_readMember_kept {get : σ → Members} {set : Members → σ → σ}
    (hunknown : schema.unknown = .keep get set) (hapart : KeepsApart get set) {extra : Members}
    (hextra : ∀ m ∈ extra, m.1 ∉ schema.keys) (s : σ) :
    extra.foldlM (fun s m => schema.readMember s m.1 m.2) s = .ok (set (get s ++ extra) s) := by
  induction extra generalizing s with
  | nil =>
    rw [List.append_nil, hapart.set_get]
    rfl
  | cons m extra ih =>
    rw [List.forall_mem_cons] at hextra
    have hread : schema.readMember s m.1 m.2 = .ok (set (get s ++ [m]) s) := by
      simp only [readMember, field?_eq_none hextra.1, hunknown]
    rw [List.foldlM_cons, hread]
    refine (ih hextra.2 _).trans ?_
    rw [hapart.get_set, hapart.set_set, List.append_assoc, List.singleton_append]

/-- A record that keeps other members is read back from the members that were written and these. -/
theorem decodeMembers_written_append {get : σ → Members} {set : Members → σ → σ}
    (hunknown : schema.unknown = .keep get set) (hapart : KeepsApart get set)
    (hkeys : schema.keys.Nodup)
    (hrequired : ∀ f ∈ schema.fields, f.absence = .error → (w f).isSome)
    (h : Restores w schema.fields schema.start t) {extra : Members}
    (hextra : ∀ m ∈ extra, m.1 ∉ schema.keys) :
    schema.decodeMembers (writtenMembers w schema.fields ++ extra) =
      .ok (set (get t ++ extra) t) := by
  have hmissing := missing?_written hrequired extra
  have hread : schema.fields.foldlM (readWritten w) schema.start = .ok t := h
  rw [decodeMembers, List.foldlM_append, foldlM_readMember_written hkeys fun _ hf => hf, hread,
    hmissing]
  change (extra.foldlM (fun s m => schema.readMember s m.1 m.2) t >>= _) = _
  rw [foldlM_readMember_kept hunknown hapart hextra]
  rfl

end Schema

/-! ### What can be read -/

/-- Reading a well-formed value into a field keeps an invariant of the record. -/
structure Field.Keeps (f : Json.Field σ) (Invariant : σ → Prop) : Prop where
  read : ∀ {j s t}, WellFormed j → Invariant s → f.read j s = .ok t → Invariant t

namespace Field.Keeps

variable {key : String} {c : Codec α} {Valid : α → Prop} {Invariant : σ → Prop}

/-- A field keeps an invariant that setting a valid value keeps. -/
theorem of_read {f : Json.Field σ} {set : α → σ → σ}
    (hread : ∀ j s, f.read j s = (c.decode j).map (set · s)) (hc : c.Lawful Valid)
    (hset : ∀ a s, Valid a → Invariant s → Invariant (set a s)) : f.Keeps Invariant where
  read := by
    intro j s t hj hs ht
    rw [hread] at ht
    obtain ⟨a, ha, rfl⟩ := decoded_map_eq_ok.mp ht
    exact hset a s (hc.valid_of_decode hj ha) hs

/-- Reading a field with a default. -/
theorem default {get : σ → α} {set : α → σ → σ} (hc : c.LawfulNonNull Valid)
    (hset : ∀ a s, Valid a → Invariant s → Invariant (set a s)) :
    (Field.default key c get set).Keeps Invariant :=
  of_read (fun _ _ => rfl) hc.toLawful hset

/-- Reading a field that has to be there. -/
theorem required {get : σ → α} {set : α → σ → σ} (hc : c.LawfulNonNull Valid)
    (hset : ∀ a s, Valid a → Invariant s → Invariant (set a s)) :
    (Field.required key c get set).Keeps Invariant :=
  of_read (fun _ _ => rfl) hc.toLawful hset

variable {get : σ → Option α} {set : Option α → σ → σ} (hc : c.LawfulNonNull Valid)
  (hset : ∀ o s, (∀ a ∈ o, Valid a) → Invariant s → Invariant (set o s))

include hc hset

/-- Reading a field that is not written if its value is absent. -/
theorem omitted : (Field.omitted key c get set).Keeps Invariant :=
  of_read (fun _ _ => rfl) hc.option hset

/-- Reading a field with a default that is null if its value is absent. -/
theorem optional : (Field.optional key c get set).Keeps Invariant :=
  of_read (fun _ _ => rfl) hc.option hset

/-- Reading a field that has to be in an array and is null if its value is absent. -/
theorem nullable : (Field.nullable key c get set).Keeps Invariant :=
  of_read (fun _ _ => rfl) hc.option hset

end Field.Keeps

namespace Schema

variable {schema : Schema σ} {Invariant : σ → Prop} {s t : σ}

/-- The table reads only records that satisfy an invariant: the start value does, and reading keeps
it, also when a member is kept that is no field. -/
structure Maintains (schema : Schema σ) (Invariant : σ → Prop) : Prop where
  start : Invariant schema.start
  fields : ∀ f ∈ schema.fields, f.Keeps Invariant
  unknown : ∀ {get set}, schema.unknown = .keep get set →
    ∀ ms s, Invariant s → Invariant (set ms s)

/-- Reading one member keeps the invariant. -/
theorem Maintains.readMember (h : schema.Maintains Invariant) {key : String} {j : Json}
    (hj : WellFormed j) (hs : Invariant s) (ht : schema.readMember s key j = .ok t) :
    Invariant t := by
  unfold Schema.readMember at ht
  split at ht
  · rename_i f hf
    exact (h.fields f (List.mem_of_find?_eq_some hf)).read hj hs ht
  · split at ht
    · exact Except.ok.inj ht ▸ hs
    · exact nomatch ht
    · rename_i hunknown
      exact Except.ok.inj ht ▸ h.unknown hunknown _ _ hs

/-- Reading members one after the other keeps the invariant. -/
theorem Maintains.foldlM_readMember (h : schema.Maintains Invariant) {ms : Members}
    (hms : ∀ m ∈ ms, WellFormed m.2) (hs : Invariant s)
    (ht : ms.foldlM (fun s m => schema.readMember s m.1 m.2) s = .ok t) : Invariant t := by
  induction ms generalizing s with
  | nil => exact Except.ok.inj ht ▸ hs
  | cons m ms ih =>
    rw [List.forall_mem_cons] at hms
    rw [List.foldlM_cons] at ht
    obtain ⟨s', hs', ht⟩ := bind_eq_ok_iff.mp ht
    exact ih hms.2 (h.readMember hms.1 hs hs') ht

/-- A record read from members satisfies the invariant. -/
theorem Maintains.decodeMembers (h : schema.Maintains Invariant) {ms : Members}
    (hms : ∀ m ∈ ms, WellFormed m.2) (hs : schema.decodeMembers ms = .ok s) : Invariant s := by
  obtain ⟨s', hs', hs⟩ := bind_eq_ok_iff.mp hs
  split at hs
  · exact nomatch hs
  · exact Except.ok.inj hs ▸ h.foldlM_readMember hms h.start hs'

/-- Reading items for fields keeps the invariant. -/
theorem Maintains.go (h : schema.Maintains Invariant) {place : Nat}
    {fields : List (Json.Field σ)} (hfields : ∀ f ∈ fields, f ∈ schema.fields) {items : List Json}
    (hitems : ∀ j ∈ items, WellFormed j) (hs : Invariant s)
    (ht : decodeItems.go schema place fields items s = .ok t) : Invariant t := by
  induction fields generalizing place items s with
  | nil => exact Except.ok.inj ht ▸ hs
  | cons f fields ih =>
    rw [List.forall_mem_cons] at hfields
    cases items with
    | nil =>
      rw [decodeItems.go] at ht
      split at ht
      · exact ih hfields.2 hitems hs ht
      · exact nomatch ht
    | cons j items =>
      rw [List.forall_mem_cons] at hitems
      obtain ⟨s', hs', ht⟩ := bind_eq_ok_iff.mp ht
      exact ih hfields.2 hitems.2 ((h.fields f hfields.1).read hitems.1 hs hs') ht

/-- A record that was read satisfies the invariant. -/
theorem Maintains.decode (h : schema.Maintains Invariant) {j : Json} (hj : WellFormed j)
    (hs : schema.decode j = .ok s) : Invariant s := by
  cases hj with
  | obj _ hvalues => exact h.decodeMembers hvalues hs
  | arr hitems =>
    simp only [Schema.decode] at hs
    split at hs
    · exact nomatch hs
    · obtain ⟨s', hs', hs⟩ := bind_eq_ok_iff.mp hs
      split at hs
      · exact nomatch hs
      · exact Except.ok.inj hs ▸ h.go (fun _ hf => hf) hitems h.start hs'
  | null | bool | num | str => exact nomatch hs

/-- The members that are kept are those that are no fields, in their order. -/
theorem kept_eq {get : σ → Members} {set : Members → σ → σ}
    (hunknown : schema.unknown = .keep get set) (hapart : KeepsApart get set)
    (hfields : ∀ ms, ∀ f ∈ schema.fields, f.Keeps fun s => get s = ms) {ms : Members}
    (hms : ∀ m ∈ ms, WellFormed m.2)
    (ht : ms.foldlM (fun s m => schema.readMember s m.1 m.2) s = .ok t) :
    get t = get s ++ ms.filter fun m => !schema.keys.contains m.1 := by
  induction ms generalizing s with
  | nil =>
    obtain rfl : s = t := Except.ok.inj ht
    rw [List.filter_nil, List.append_nil]
  | cons m ms ih =>
    rw [List.forall_mem_cons] at hms
    rw [List.foldlM_cons] at ht
    obtain ⟨s', hs', ht⟩ := bind_eq_ok_iff.mp ht
    rw [ih hms.2 ht]
    cases hfield : schema.field? m.1 with
    | some f =>
      have hmem : f ∈ schema.fields := List.mem_of_find?_eq_some hfield
      have hkey : f.key = m.1 := by simpa using List.find?_some hfield
      have hknown : m.1 ∈ schema.keys := by
        rw [← hkey]
        exact List.mem_map_of_mem hmem
      have hread : f.read m.2 s = .ok s' := by simpa only [readMember, hfield] using hs'
      rw [(hfields (get s) f hmem).read hms.1 rfl hread, List.filter_cons_of_neg (by simp [hknown])]
    | none =>
      have hnew : m.1 ∉ schema.keys := by
        intro hknown
        obtain ⟨f, hf, hkey⟩ := List.mem_map.mp hknown
        exact List.find?_eq_none.mp hfield f hf (by simp [hkey])
      have hread : set (get s ++ [m]) s = s' := by
        simpa only [readMember, hfield, hunknown, Except.ok.injEq] using hs'
      rw [← hread, hapart.get_set, List.filter_cons_of_pos (by simp [hnew]), List.append_assoc,
        List.singleton_append]

/-- The members kept beside the fields of a record that was read have keys of their own. -/
theorem kept_of_decode {get : σ → Members} {set : Members → σ → σ}
    (hunknown : schema.unknown = .keep get set) (hapart : KeepsApart get set)
    (hfields : ∀ ms, ∀ f ∈ schema.fields, f.Keeps fun s => get s = ms)
    (hstart : get schema.start = []) {j : Json} (hj : WellFormed j)
    (hs : schema.decode j = .ok s) :
    (Keyed.keys (get s)).Nodup ∧ ∀ m ∈ get s, m.1 ∉ schema.keys := by
  cases hj with
  | @obj ms hnodup hvalues =>
    obtain ⟨s', hs', hs⟩ := bind_eq_ok_iff.mp hs
    split at hs
    · exact nomatch hs
    · obtain rfl : s' = s := Except.ok.inj hs
      rw [kept_eq hunknown hapart hfields hvalues hs', hstart, List.nil_append]
      refine ⟨hnodup.sublist (List.filter_sublist.map _), fun m hm => ?_⟩
      simpa using (List.mem_filter.mp hm).2
  | arr _ =>
    simp only [Schema.decode, hunknown] at hs
    exact nomatch hs
  | null | bool | num | str => exact nomatch hs

end Schema

end DiagramScene.Json
