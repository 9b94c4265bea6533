import Mathlib
import DiagramScene.Proofs.Element.Members
import DiagramScene.Proofs.Json.MemberOrder

/-!
# Spellings of an element

An element can be spelled as an object in many ways: an attribute without a value is null or left
out, and the keys stand in any order.  All of them are read alike (`decode_respelled`).

The members that the common attributes and those of the kind are read from are picked out of the
object, without those that are null (`decodeMembers_eq`), and the tables read them in any order
(`Json.Schema.Partwise`).  Only the members with unknown keys show the order of the object.
-/

namespace DiagramScene

open scoped List
open Json (Parts Schema)

/-! ### The tables -/

/-- The parts of a line. -/
def LinearPath.parts (path : LinearPath Float) : Parts :=
  [⟨_, path.points⟩, ⟨_, path.lastCommittedPoint⟩, ⟨_, path.startBinding⟩, ⟨_, path.endBinding⟩,
    ⟨_, path.startArrowhead⟩, ⟨_, path.endArrowhead⟩]

/-- The parts of a stroke. -/
def Stroke.parts (stroke : Stroke Float) : Parts :=
  [⟨_, stroke.points⟩, ⟨_, stroke.pressures⟩, ⟨_, stroke.simulatePressure⟩,
    ⟨_, stroke.lastCommittedPoint⟩]

/-- The parts of a text. -/
def TextContent.parts (t : TextContent Float) : Parts :=
  [⟨_, t.text⟩, ⟨_, t.fontSize⟩, ⟨_, t.fontFamily⟩, ⟨_, t.textAlign⟩, ⟨_, t.verticalAlign⟩,
    ⟨_, t.baseline⟩, ⟨_, t.containerId⟩, ⟨_, t.originalText⟩, ⟨_, t.lineHeight⟩]

/-- The parts of an image. -/
def Picture.parts (picture : Picture Float) : Parts :=
  [⟨_, picture.fileId⟩, ⟨_, picture.status⟩, ⟨_, picture.scale⟩]

/-- The part of a frame. -/
def FrameTitle.parts (title : FrameTitle) : Parts := [⟨_, title.name⟩]

/-- The parts of an element: the common attributes, its kind and all others. -/
def Element.parts (e : Element Float) : Parts :=
  [⟨_, e.id⟩, ⟨_, e.x⟩, ⟨_, e.y⟩, ⟨_, e.width⟩, ⟨_, e.height⟩, ⟨_, e.angle⟩, ⟨_, e.strokeColor⟩,
    ⟨_, e.backgroundColor⟩, ⟨_, e.fillStyle⟩, ⟨_, e.strokeWidth⟩, ⟨_, e.strokeStyle⟩,
    ⟨_, e.roughness⟩, ⟨_, e.opacity⟩, ⟨_, e.groupIds⟩, ⟨_, e.frameId⟩, ⟨_, e.roundness⟩,
    ⟨_, e.seed⟩, ⟨_, e.version⟩, ⟨_, e.versionNonce⟩, ⟨_, e.isDeleted⟩, ⟨_, e.boundElements⟩,
    ⟨_, e.updated⟩, ⟨_, e.link⟩, ⟨_, e.locked⟩, ⟨_, e.label⟩, ⟨_, e.metadata⟩, ⟨_, e.kind⟩,
    ⟨_, e.extra⟩]

/-- Each field of a line puts its part. -/
theorem LinearPath.partwise : schema.Partwise parts where
  injective := by
    intro path path' h
    cases path; cases path'
    simpa [parts] using h
  puts := by
    simp only [schema, List.zipIdx_cons, List.zipIdx_nil, List.forall_mem_cons]
    refine ⟨?_, ?_, ?_, ?_, ?_, ?_, List.forall_mem_nil _⟩ <;>
      exact .of_set (fun _ _ => rfl) fun _ _ => rfl

/-- Each field of a stroke puts its part. -/
theorem Stroke.partwise : schema.Partwise parts where
  injective := by
    intro stroke stroke' h
    cases stroke; cases stroke'
    simpa [parts] using h
  puts := by
    simp only [schema, List.zipIdx_cons, List.zipIdx_nil, List.forall_mem_cons]
    refine ⟨?_, ?_, ?_, ?_, List.forall_mem_nil _⟩ <;> exact .of_set (fun _ _ => rfl) fun _ _ => rfl

/-- Each field of a text puts its part. -/
theorem TextContent.partwise : schema.Partwise parts where
  injective := by
    intro t t' h
    cases t; cases t'
    simpa [parts] using h
  puts := by
    simp only [schema, List.zipIdx_cons, List.zipIdx_nil, List.forall_mem_cons]
    refine ⟨?_, ?_, ?_, ?_, ?_, ?_, ?_, ?_, ?_, List.forall_mem_nil _⟩ <;>
      exact .of_set (fun _ _ => rfl) fun _ _ => rfl

/-- Each field of an image puts its part. -/
theorem Picture.partwise : schema.Partwise parts where
  injective := by
    intro picture picture' h
    cases picture; cases picture'
    simpa [parts] using h
  puts := by
    simp only [schema, List.zipIdx_cons, List.zipIdx_nil, List.forall_mem_cons]
    refine ⟨?_, ?_, ?_, List.forall_mem_nil _⟩ <;> exact .of_set (fun _ _ => rfl) fun _ _ => rfl

/-- The field of a frame puts its part. -/
theorem FrameTitle.partwise : schema.Partwise parts where
  injective := by
    intro title title' h
    cases title; cases title'
    simpa [parts] using h
  puts := by
    simp only [schema, List.zipIdx_cons, List.zipIdx_nil, List.forall_mem_cons]
    exact ⟨.of_set (fun _ _ => rfl) fun _ _ => rfl, List.forall_mem_nil _⟩

/-- Each common attribute puts its part. -/
theorem Element.partwise : commonSchema.Partwise parts where
  injective := by
    intro e e' h
    cases e; cases e'
    simpa [parts] using h
  puts := by
    simp only [commonSchema, List.zipIdx_cons, List.zipIdx_nil, List.forall_mem_cons]
    refine ⟨?_, ?_, ?_, ?_, ?_, ?_, ?_, ?_, ?_, ?_, ?_, ?_, ?_, ?_, ?_, ?_, ?_, ?_, ?_, ?_, ?_, ?_,
      ?_, ?_, ?_, ?_, List.forall_mem_nil _⟩ <;> exact .of_set (fun _ _ => rfl) fun _ _ => rfl

/-- The attributes of a kind are read alike in any order. -/
theorem ElementKind.decode_reader_perm (name : String) {ms ms' : Members} (hperm : ms ~ ms')
    (hkeys : (Keyed.keys ms).Nodup) (kind : ElementKind Float) :
    (reader name).decode ms = .ok kind ↔ (reader name).decode ms' = .ok kind := by
  have hschema {σ : Type} {schema : Schema σ} {parts : σ → Parts} (h : schema.Partwise parts)
      (hignore : schema.unknown = .ignore) (make : σ → ElementKind Float) :
      (Reader.ofSchema schema make).decode ms = .ok kind ↔
        (Reader.ofSchema schema make).decode ms' = .ok kind := by
    rw [Reader.ofSchema, Json.decoded_map_eq_ok, Json.decoded_map_eq_ok]
    simp only [h.decodeMembers_perm hignore hperm hkeys]
  unfold reader
  split
  case h_4 | h_5 => exact hschema LinearPath.partwise rfl _
  case h_6 => exact hschema Stroke.partwise rfl _
  case h_7 => exact hschema TextContent.partwise rfl _
  case h_8 => exact hschema Picture.partwise rfl _
  case h_9 | h_10 => exact hschema FrameTitle.partwise rfl _
  all_goals exact Iff.rfl

namespace Element

variable {name : String} {ms ms' : Members} {keys : List String}

/-- An element of a type is read from the members for its common attributes and from those for its
kind, and keeps the unknown ones. -/
theorem decodeMembers_eq (htype : ms.get? "type" = some (.str name)) :
    decodeMembers ms = commonSchema.decodeMembers (commonPart name ms) >>= fun e =>
      (ElementKind.reader name).decode (kindPart name ms) >>= fun kind =>
        .ok { e with kind := kind, extra := unknownMembers name ms } := by
  rw [← filter_unknown, decodeMembers, decodeType, htype]
  rfl

/-! ### Members that are null -/

section Null

variable (hnull : ∀ m ∈ ms, m.1 ∈ keys → m.2 = .null)

include hnull

/-- Members that are null are not read. -/
theorem notMem_keys_of_known {keys' : List String} {m : String × Json} (hm : m ∈ ms)
    (hknown : (keys'.contains m.1 && !m.2.isNull) = true) : decide (m.1 ∉ keys) = true := by
  refine decide_eq_true fun hkey => ?_
  rw [hnull m hm hkey] at hknown
  exact absurd (Bool.and_eq_true_iff.mp hknown).2 Bool.false_ne_true

/-- The attributes of the kind are read from the same members where null ones are left out. -/
theorem kindPart_filter (name : String) :
    kindPart name (ms.filter (·.1 ∉ keys)) = kindPart name ms := by
  simp only [kindPart, known, List.filter_filter, ← Bool.and_assoc]
  refine List.filter_congr fun m hm => Bool.and_eq_left_iff_imp.mpr fun hread => ?_
  exact notMem_keys_of_known hnull hm (Bool.and_eq_true_iff.mp hread).1

/-- The common attributes are read from the same members where null ones are left out. -/
theorem commonPart_filter (name : String) :
    commonPart name (ms.filter (·.1 ∉ keys)) = commonPart name ms := by
  simp only [commonPart, known, List.filter_filter, ← Bool.and_assoc]
  refine List.filter_congr fun m hm => Bool.and_eq_left_iff_imp.mpr fun hread => ?_
  have hcommon := (Bool.and_eq_true_iff.mp (Bool.and_eq_true_iff.mp hread).1).1
  exact notMem_keys_of_known hnull hm hcommon

end Null

/-- The members with unknown keys are the same where some with known keys are left out. -/
theorem unknownMembers_filter (hknown : keys ⊆ commonKeys ++ (ElementKind.reader name).keys) :
    unknownMembers name (ms.filter (·.1 ∉ keys)) = unknownMembers name ms := by
  rw [commonKeys_eq, ElementKind.keys_reader_eq] at hknown
  unfold unknownMembers
  rw [List.filter_filter]
  refine List.filter_congr fun m _ => Bool.and_eq_left_iff_imp.mpr fun hunknown => ?_
  exact decide_eq_true fun hkey =>
    of_decide_eq_true hunknown (List.mem_cons_of_mem _ (hknown hkey))

/-- An element is read alike where attributes that are null are left out. -/
theorem decode_filter_null (htype : ms.get? "type" = some (.str name))
    (hknown : keys ⊆ commonKeys ++ (ElementKind.reader name).keys)
    (hnull : ∀ m ∈ ms, m.1 ∈ keys → m.2 = .null) :
    decode (.obj (ms.filter (·.1 ∉ keys))) = decode (.obj ms) := by
  -- The type itself is a text, so it is not left out.
  have htypeKey : "type" ∉ keys := by
    intro hkey
    exact nomatch hnull _ (Keyed.mem_of_get? htype) hkey
  have htype' : Keyed.get? (ms.filter (·.1 ∉ keys)) "type" = some (.str name) :=
    (Keyed.get?_filter fun _ => decide_eq_true htypeKey).trans htype
  rw [decode, decode, decodeMembers_eq htype, decodeMembers_eq htype', commonPart_filter hnull,
    kindPart_filter hnull, unknownMembers_filter hknown]

/-! ### Members in another order -/

/-- The element that is read of members in another order: its unknown members are in this order. -/
theorem decode_perm (htype : ms.get? "type" = some (.str name)) (hkeys : (Keyed.keys ms).Nodup)
    (hperm : ms' ~ ms) {e : Element Float} (h : decode (.obj ms) = .ok e) :
    decode (.obj ms') = .ok { e with extra := unknownMembers name ms' } := by
  have htype' : ms'.get? "type" = some (.str name) :=
    (Keyed.get?_perm hperm.symm hkeys "type").trans htype
  rw [decode, decodeMembers_eq htype] at h
  obtain ⟨common, hcommon, h⟩ := bind_eq_ok_iff.mp h
  obtain ⟨kind, hkind, h⟩ := bind_eq_ok_iff.mp h
  obtain rfl := Except.ok.inj h
  have hcommon' : commonSchema.decodeMembers (commonPart name ms') = .ok common := by
    have hpart : commonPart name ms ~ commonPart name ms' :=
      ((hperm.symm.filter _).filter _).filter _
    refine (partwise.decodeMembers_perm rfl hpart ?_ common).mp hcommon
    exact Keyed.nodup_keys_filter (Keyed.nodup_keys_filter (Keyed.nodup_keys_filter hkeys _) _) _
  have hkind' : (ElementKind.reader name).decode (kindPart name ms') = .ok kind := by
    have hpart : kindPart name ms ~ kindPart name ms' := (hperm.symm.filter _).filter _
    refine (ElementKind.decode_reader_perm name hpart ?_ kind).mp hkind
    exact Keyed.nodup_keys_filter (Keyed.nodup_keys_filter hkeys _) _
  rw [decode, decodeMembers_eq htype', hcommon']
  change ((ElementKind.reader name).decode (kindPart name ms') >>= _) = _
  rw [hkind']
  rfl

/-- All spellings of an element are read alike.  Leaving out known keys whose values are null makes
no difference at all.  An object with its keys in another order is read exactly if it is read in the
first one, and then as the same element, whose unknown members are in the new order. -/
theorem decode_respelled (hkeys : (Keyed.keys ms).Nodup)
    (htype : ms.get? "type" = some (.str name)) :
    (∀ keys ⊆ commonKeys ++ (ElementKind.reader name).keys,
      (∀ m ∈ ms, m.1 ∈ keys → m.2 = .null) →
        decode (.obj (ms.filter (·.1 ∉ keys))) = decode (.obj ms)) ∧
      ∀ ms' : Members, ms' ~ ms →
        ((∃ e', decode (.obj ms') = .ok e') ↔ ∃ e, decode (.obj ms) = .ok e) ∧
          ∀ e, decode (.obj ms) = .ok e → ∃ extra, extra ~ e.extra ∧ extra <+ ms' ∧
            decode (.obj ms') = .ok { e with extra := extra } := by
  refine ⟨fun keys hknown hnull => decode_filter_null htype hknown hnull, fun ms' hperm => ?_⟩
  have hkeys' : (Keyed.keys ms').Nodup := (hperm.map Prod.fst).nodup_iff.mpr hkeys
  have htype' : ms'.get? "type" = some (.str name) :=
    (Keyed.get?_perm hperm.symm hkeys "type").trans htype
  refine ⟨⟨?_, ?_⟩, fun e he => ?_⟩
  · rintro ⟨e', he'⟩
    exact ⟨_, decode_perm htype' hkeys' hperm.symm he'⟩
  · rintro ⟨e, he⟩
    exact ⟨_, decode_perm htype hkeys hperm he⟩
  · have hextra : e.extra = unknownMembers name ms := by
      have hself := decode_perm htype hkeys (.refl ms) he
      exact congrArg (·.extra) (Except.ok.inj (he.symm.trans hself))
    refine ⟨unknownMembers name ms', ?_, List.filter_sublist, decode_perm htype hkeys hperm he⟩
    rw [hextra]
    exact hperm.filter _

/-- The jotting is read alike without two of its null attributes, and the other way round. -/
theorem decode_respelled_jotting : (Keyed.keys jotting).Nodup ∧
    jotting.get? "type" = some (.str "text") ∧
    ["label", "x"] ⊆ commonKeys ++ (ElementKind.reader "text").keys ∧
    (∀ m ∈ jotting, m.1 ∈ ["label", "x"] → m.2 = .null) ∧
    decode (.obj (jotting.filter (·.1 ∉ ["label", "x"]))) = decode (.obj jotting) ∧
    jotting.reverse ~ jotting ∧ ∃ e extra, decode (.obj jotting) = .ok e ∧ extra ~ e.extra ∧
      extra <+ jotting.reverse ∧
      decode (.obj jotting.reverse) = .ok { e with extra := extra } := by
  have hkeys : (Keyed.keys jotting).Nodup := by decide
  have htype : jotting.get? "type" = some (.str "text") := rfl
  have hknown : ["label", "x"] ⊆ commonKeys ++ (ElementKind.reader "text").keys := by decide
  have hnull : ∀ m ∈ jotting, m.1 ∈ ["label", "x"] → m.2 = .null := by simp [jotting]
  have hreverse : jotting.reverse ~ jotting := List.reverse_perm jotting
  obtain ⟨e, he⟩ : ∃ e, decode (.obj jotting) = .ok e := ⟨_, rfl⟩
  obtain ⟨hleftOut, hreordered⟩ := decode_respelled hkeys htype
  obtain ⟨extra, hextra, hsublist, h⟩ := (hreordered _ hreverse).2 e he
  exact ⟨hkeys, htype, hknown, hnull, hleftOut _ hknown hnull, hreverse, e, extra, he, hextra,
    hsublist, h⟩

end Element

end DiagramScene
