import Mathlib
import DiagramScene.Proofs.Element.RoundTrip
import DiagramScene.Proofs.Json.Independence

/-!
# What an element shows of the object that it was read from

An object is taken apart by the keys that are known for its type, and what is made of it is put
together by the tables of fields.  This file says what comes out, in terms of the object alone
(`Shows`): its id and its type, the common attributes, those of its kind, and then all members with
other keys, as they were.

The tables do not interfere (`Json.Schema.Independent`), so an attribute without a value is written
as the table starts with it.  These values are listed here once more, as they stand in JSON; the two
lists agree by computation.  There is one exception: a text that was first written as nothing was
first written as it is.
-/

namespace DiagramScene

open Json (Schema)

/-! ### The members of an element that says nothing -/

/-- The attributes of a line without points. -/
def LinearPath.defaults : Members :=
  [("points", .arr []), ("lastCommittedPoint", .null), ("startBinding", .null),
    ("endBinding", .null), ("startArrowhead", .null), ("endArrowhead", .null)]

/-- The attributes of a stroke without points. -/
def Stroke.defaults : Members :=
  [("points", .arr []), ("pressures", .arr []), ("simulatePressure", .bool false),
    ("lastCommittedPoint", .null)]

/-- The attributes of a text that is empty. -/
def TextContent.defaults : Members :=
  [("text", .str ""), ("fontSize", .float 20.0), ("fontFamily", .int 1), ("textAlign", .str "left"),
    ("verticalAlign", .str "top"), ("baseline", .float 0.0), ("containerId", .null),
    ("originalText", .str ""), ("lineHeight", .float 1.25)]

/-- The attributes of an image that is not loaded. -/
def Picture.defaults : Members :=
  [("fileId", .null), ("status", .str "pending"), ("scale", .arr [.float 1.0, .float 1.0])]

/-- The attributes of a frame without a name. -/
def FrameTitle.defaults : Members := [("name", .null)]

/-- The attributes of the kind with a name, if none of them has a value. -/
def ElementKind.defaults : String → Members
  | "line" | "arrow" => LinearPath.defaults
  | "freedraw" => Stroke.defaults
  | "text" => TextContent.defaults
  | "image" => Picture.defaults
  | "frame" | "magicframe" => FrameTitle.defaults
  | _ => []

namespace Element

/-- The common attributes that are always shown, if none of them has a value. -/
def defaults : Members :=
  [("id", .str ""), ("x", .float 0.0), ("y", .float 0.0), ("width", .float 0.0),
    ("height", .float 0.0), ("angle", .float 0.0), ("strokeColor", .str "#1e1e1e"),
    ("backgroundColor", .str "transparent"), ("fillStyle", .str "solid"),
    ("strokeWidth", .float 2.0), ("strokeStyle", .str "solid"), ("roughness", .float 1.0),
    ("opacity", .float 100.0), ("groupIds", .arr []), ("frameId", .null), ("roundness", .null),
    ("seed", .int 0), ("version", .int 1), ("versionNonce", .int 0), ("isDeleted", .bool false),
    ("boundElements", .null), ("updated", .int 0), ("link", .null), ("locked", .bool false)]

/-- The common attributes that are shown only if they have a value. -/
def sparseKeys : List String := ["label", "metadata"]

/-- The keys that are known for a type. -/
def knownKeys (name : String) : List String :=
  "type" :: (Keyed.keys defaults ++ sparseKeys ++ Keyed.keys (ElementKind.defaults name))

/-- The members with keys that are not known for a type. -/
def unknownMembers (name : String) (ms : Members) : Members :=
  ms.filter (·.1 ∉ knownKeys name)

/-- The key has a value, and this is not null. -/
def isSet (ms : Members) (key : String) : Bool :=
  (ms.get? key).any (!·.isNull)

/-- The keys of the attributes that are shown of an object with a type. -/
def shownKeys (name : String) (ms : Members) : List String :=
  "id" :: "type" :: ((Keyed.keys defaults).erase "id" ++ sparseKeys.filter (isSet ms) ++
    Keyed.keys (ElementKind.defaults name))

/-- What an element shows that was read from the members of an object with a type. -/
structure Shows (name : String) (ms out : Members) : Prop where
  /-- The attributes come first, and all other members follow as they were. -/
  eq_append : ∃ attributes, out = attributes ++ unknownMembers name ms ∧
    Keyed.keys attributes = shownKeys name ms
  keys_nodup : (Keyed.keys out).Nodup
  type : out.get? "type" = some (.str name)
  /-- An attribute without a value shows its default. -/
  default : ∀ m ∈ defaults ++ ElementKind.defaults name, isSet ms m.1 = false →
    (name = "text" → m.1 ≠ "originalText") → out.get? m.1 = some m.2
  /-- A text that was first written as nothing was first written as it is. -/
  originalText : name = "text" →
    isSet ms "originalText" = false ∨ ms.get? "originalText" = some (.str "") →
    out.get? "originalText" = out.get? "text"

end Element

/-! ### The tables -/

/-- The fields of a line do not interfere. -/
theorem LinearPath.independent : LinearPath.schema.Independent := by
  simp only [Schema.Independent, schema, List.zipIdx_cons, List.zipIdx_nil, List.forall_mem_cons]
  refine ⟨?_, ?_, ?_, ?_, ?_, ?_, List.forall_mem_nil _⟩ <;>
    exact .of_set (fun _ _ => rfl) fun _ _ => rfl

/-- The fields of a stroke do not interfere. -/
theorem Stroke.independent : Stroke.schema.Independent := by
  simp only [Schema.Independent, schema, List.zipIdx_cons, List.zipIdx_nil, List.forall_mem_cons]
  refine ⟨?_, ?_, ?_, ?_, List.forall_mem_nil _⟩ <;> exact .of_set (fun _ _ => rfl) fun _ _ => rfl

/-- The fields of a text do not interfere. -/
theorem TextContent.independent : TextContent.schema.Independent := by
  simp only [Schema.Independent, schema, List.zipIdx_cons, List.zipIdx_nil, List.forall_mem_cons]
  refine ⟨?_, ?_, ?_, ?_, ?_, ?_, ?_, ?_, ?_, List.forall_mem_nil _⟩ <;>
    exact .of_set (fun _ _ => rfl) fun _ _ => rfl

/-- The fields of an image do not interfere. -/
theorem Picture.independent : Picture.schema.Independent := by
  simp only [Schema.Independent, schema, List.zipIdx_cons, List.zipIdx_nil, List.forall_mem_cons]
  refine ⟨?_, ?_, ?_, List.forall_mem_nil _⟩ <;> exact .of_set (fun _ _ => rfl) fun _ _ => rfl

/-- The field of a frame changes nothing else. -/
theorem FrameTitle.independent : FrameTitle.schema.Independent := by
  simp only [Schema.Independent, schema, List.zipIdx_cons, List.zipIdx_nil, List.forall_mem_cons]
  exact ⟨.of_set (fun _ _ => rfl) fun _ _ => rfl, List.forall_mem_nil _⟩

/-- The common attributes do not interfere. -/
theorem Element.independent : Element.commonSchema.Independent := by
  simp only [Schema.Independent, commonSchema, List.zipIdx_cons, List.zipIdx_nil,
    List.forall_mem_cons]
  refine ⟨?_, ?_, ?_, ?_, ?_, ?_, ?_, ?_, ?_, ?_, ?_, ?_, ?_, ?_, ?_, ?_, ?_, ?_, ?_, ?_, ?_, ?_,
    ?_, ?_, ?_, ?_, List.forall_mem_nil _⟩ <;> exact .of_set (fun _ _ => rfl) fun _ _ => rfl

/-- The common attributes are those with a default and the others. -/
theorem Element.commonKeys_eq :
    Element.commonKeys = Keyed.keys Element.defaults ++ Element.sparseKeys := rfl

namespace ElementKind

variable {name : String} {ms : Members} {kind : ElementKind Float}

/-- A kind that is carried along has no attributes. -/
theorem defaults_of_notMem_names (h : name ∉ names) : defaults name = [] := by
  unfold defaults
  split <;> first | rfl | exact absurd (by decide) h

/-- The attributes of a kind are those with a default. -/
theorem keys_reader_eq (name : String) : (reader name).keys = Keyed.keys (defaults name) := by
  by_cases h : name ∈ names
  · simp only [names, List.mem_cons, List.not_mem_nil, or_false] at h
    rcases h with rfl | rfl | rfl | rfl | rfl | rfl | rfl | rfl | rfl | rfl | rfl | rfl <;> rfl
  · rw [reader_of_notMem_names h, defaults_of_notMem_names h]
    rfl

/-- All attributes of a kind are written. -/
theorem keys_encodeMembers (h : kind.Encodable) :
    Keyed.keys kind.encodeMembers = Keyed.keys (defaults kind.name) := by
  cases kind with
  | other name =>
    change [] = Keyed.keys (defaults name)
    rw [defaults_of_notMem_names h]
    rfl
  | _ => rfl

/-- An attribute of a text without a value is written as its default. -/
theorem mem_completedText {content : TextContent Float} {m : String × Json}
    (hkey : m.1 ≠ "originalText") (hm : m ∈ TextContent.schema.encodeMembers content) :
    m ∈ (completedText content).encodeMembers := by
  unfold completedText
  split
  · -- Completing the text is like reading it as the text that was first written.
    have horiginal : TextContent.schema.fields[7] ∈ TextContent.schema.fields :=
      List.getElem_mem (by decide)
    exact TextContent.independent.mem_encodeMembers_of_read (j := .str content.text) rfl horiginal
      rfl (Ne.symm hkey) hm
  · exact hm

/-- An attribute of a kind that was read without its member is written as its default. -/
theorem mem_encodeMembers_of_notMem {m : String × Json} (hm : m ∈ defaults name)
    (hkey : m.1 ∉ Keyed.keys ms) (htext : name = "text" → m.1 ≠ "originalText")
    (h : (reader name).decode ms = .ok kind) : m ∈ kind.encodeMembers := by
  unfold reader at h
  -- Where a table is used, its defaults are what it writes of its start value, by computation.
  split at h
  case h_4 | h_5 =>
    obtain ⟨path, hpath, rfl⟩ := Json.decoded_map_eq_ok.mp h
    exact LinearPath.independent.mem_encodeMembers_of_notMem rfl hm hkey hpath
  case h_6 =>
    obtain ⟨stroke, hstroke, rfl⟩ := Json.decoded_map_eq_ok.mp h
    exact Stroke.independent.mem_encodeMembers_of_notMem rfl hm hkey hstroke
  case h_7 =>
    obtain ⟨content, hcontent, rfl⟩ := Json.decoded_map_eq_ok.mp h
    exact mem_completedText (htext rfl)
      (TextContent.independent.mem_encodeMembers_of_notMem rfl hm hkey hcontent)
  case h_8 =>
    obtain ⟨picture, hpicture, rfl⟩ := Json.decoded_map_eq_ok.mp h
    exact Picture.independent.mem_encodeMembers_of_notMem rfl hm hkey hpicture
  case h_9 | h_10 =>
    obtain ⟨title, htitle, rfl⟩ := Json.decoded_map_eq_ok.mp h
    exact FrameTitle.independent.mem_encodeMembers_of_notMem rfl hm hkey htitle
  case h_13 =>
    have hname : name ∉ names := by simp_all [names]
    rw [defaults_of_notMem_names hname] at hm
    exact absurd hm List.not_mem_nil
  all_goals exact absurd hm List.not_mem_nil

/-- A text that was first written as nothing is written twice. -/
theorem exists_text_mem_encodeMembers (hms : (Keyed.keys ms).Nodup)
    (hempty : ∀ m ∈ ms, m.1 = "originalText" → m.2 = .str "")
    (h : (reader "text").decode ms = .ok kind) :
    ∃ text, ("text", Json.str text) ∈ kind.encodeMembers ∧
      ("originalText", Json.str text) ∈ kind.encodeMembers := by
  obtain ⟨content, hcontent, rfl⟩ := Json.decoded_map_eq_ok.mp h
  have hfield : TextContent.schema.fields[7] ∈ TextContent.schema.fields :=
    List.getElem_mem (by decide)
  have hwrite : TextContent.schema.fields[7].write content = some (.str "") := by
    by_cases hkey : TextContent.schema.fields[7].key ∈ Keyed.keys ms
    · obtain ⟨j, hj⟩ := Keyed.mem_keys_iff.mp hkey
      have hmem := Keyed.mem_of_get? hj
      obtain rfl : j = .str "" := hempty _ hmem rfl
      obtain ⟨s, s', hread, hwrite⟩ :=
        TextContent.independent.write_of_mem rfl (by decide) hfield hms hmem hcontent
      obtain rfl := Except.ok.inj hread
      exact hwrite
    · exact TextContent.independent.write_of_notMem rfl hfield hkey hcontent
  have horiginal : content.originalText = "" := Json.str.inj (Option.some.inj hwrite)
  refine ⟨content.text, ?_⟩
  rw [completedText, horiginal]
  exact ⟨List.mem_of_getElem? (i := 0) rfl, List.mem_of_getElem? (i := 7) rfl⟩

end ElementKind

namespace Element

variable {name : String} {ms : Members} {key : String} {e : Element Float}

/-! ### What is read from where -/

/-- The members that the common attributes are read from. -/
def commonPart (name : String) (ms : Members) : Members :=
  known commonKeys ((ms.filter (·.1 != "type")).filter fun m =>
    !(ElementKind.reader name).keys.contains m.1)

/-- The members that the attributes of the kind are read from. -/
def kindPart (name : String) (ms : Members) : Members :=
  known (ElementKind.reader name).keys (ms.filter (·.1 != "type"))

/-- A key is set if it stands with a value that is not null. -/
theorem isSet_iff (hms : (Keyed.keys ms).Nodup) :
    isSet ms key = true ↔ ∃ j, (key, j) ∈ ms ∧ j.isNull = false := by
  rw [isSet, Option.any_eq_true]
  constructor
  · rintro ⟨j, hj, hnull⟩
    exact ⟨j, Keyed.mem_of_get? hj, by simpa using hnull⟩
  · rintro ⟨j, hj, hnull⟩
    exact ⟨j, Keyed.get?_of_mem hms hj, by simpa using hnull⟩

/-- A common attribute is read if its key is set. -/
theorem mem_keys_commonPart (hms : (Keyed.keys ms).Nodup) (hkey : key ∈ commonKeys) :
    key ∈ Keyed.keys (commonPart name ms) ↔ isSet ms key = true := by
  have hown : key ∉ (ElementKind.reader name).keys := fun hown =>
    ((ElementKind.keys_reader name).2 key hown).2 hkey
  have htype : key ≠ "type" := by
    rintro rfl
    exact absurd hkey (by decide)
  simp [isSet_iff hms, commonPart, known, Keyed.keys, hkey, hown, htype]

/-- An attribute of the kind is read if its key is set. -/
theorem mem_keys_kindPart (hms : (Keyed.keys ms).Nodup)
    (hkey : key ∈ (ElementKind.reader name).keys) :
    key ∈ Keyed.keys (kindPart name ms) ↔ isSet ms key = true := by
  have htype : key ≠ "type" := ((ElementKind.keys_reader name).2 key hkey).1
  simp [isSet_iff hms, kindPart, known, Keyed.keys, hkey, htype]

/-- The members that are kept are those with unknown keys. -/
theorem filter_unknown (name : String) (ms : Members) :
    (ms.filter (·.1 != "type")).filter (fun m =>
      !(ElementKind.reader name).keys.contains m.1 && !commonKeys.contains m.1) =
        unknownMembers name ms := by
  rw [List.filter_filter, unknownMembers]
  refine List.filter_congr fun m _ => ?_
  simp only [knownKeys, ← commonKeys_eq, ← ElementKind.keys_reader_eq]
  grind

/-- An element is read in parts. -/
theorem decode_parts (h : codec.decode (.obj ms) = .ok e) :
    ∃ name element kind, ms.get? "type" = some (.str name) ∧
      commonSchema.decodeMembers (commonPart name ms) = .ok element ∧
      (ElementKind.reader name).decode (kindPart name ms) = .ok kind ∧
      e = { element with kind := kind, extra := unknownMembers name ms } := by
  obtain ⟨name, hname, h⟩ := bind_eq_ok_iff.mp h
  obtain ⟨element, helement, h⟩ := bind_eq_ok_iff.mp h
  obtain ⟨kind, hkind, h⟩ := bind_eq_ok_iff.mp h
  refine ⟨name, element, kind, ?_, helement, hkind, ?_⟩
  · unfold decodeType at hname
    split at hname
    · rename_i htype
      rw [htype, Except.ok.inj hname]
    · exact nomatch hname
    · exact nomatch hname
  · rw [← filter_unknown]
    exact (Except.ok.inj h).symm

/-! ### What is written -/

/-- A common attribute without a value is written as its default. -/
theorem mem_common_of_unset (hms : (Keyed.keys ms).Nodup) {m : String × Json} (hm : m ∈ defaults)
    (hset : isSet ms m.1 = false) (h : commonSchema.decodeMembers (commonPart name ms) = .ok e) :
    m ∈ commonSchema.encodeMembers e := by
  have hkey : m.1 ∈ commonKeys := by
    rw [commonKeys_eq]
    exact List.mem_append_left _ (List.mem_map_of_mem hm)
  have hpart : m.1 ∉ Keyed.keys (commonPart name ms) := by
    rw [mem_keys_commonPart hms hkey, hset]
    exact Bool.false_ne_true
  exact independent.mem_encodeMembers_of_notMem rfl hm hpart h

/-- The members that are read are not null. -/
theorem ne_null_of_mem_known {keys : List String} {m : String × Json} (hm : m ∈ known keys ms) :
    m.2 ≠ .null := by
  intro hnull
  have hvalue := (List.mem_filter.mp hm).2
  rw [hnull] at hvalue
  simp [Json.isNull] at hvalue

/-- A common attribute that is not always written is written if it is set. -/
theorem isSome_get_eq_isSet {α : Type} {c : Json.Codec α} {get : Element Float → Option α}
    {set : Option α → Element Float → Element Float}
    (hfield : .omitted key c get set ∈ commonSchema.fields) (hget : ∀ o s, get (set o s) = o)
    (hstart : get commonSchema.start = none) (hms : (Keyed.keys ms).Nodup)
    (h : commonSchema.decodeMembers (commonPart name ms) = .ok e) :
    (get e).isSome = isSet ms key := by
  have hkey : key ∈ commonKeys := List.mem_map_of_mem hfield
  have hwrite := independent.isSome_write rfl (by decide) hfield
    (Keyed.nodup_keys_filter (Keyed.nodup_keys_filter (Keyed.nodup_keys_filter hms _) _) _)
    (fun m hm => ne_null_of_mem_known hm) (Option.map_eq_none_iff.mpr hstart)
    (Json.Field.isSome_write_omitted hget) h
  rw [Bool.eq_iff_iff, ← mem_keys_commonPart hms hkey]
  exact (Bool.eq_iff_iff.mp Option.isSome_map.symm).trans hwrite

/-- The common attributes that are written are those with a default, and the others if they are
there. -/
theorem keys_encodeMembers_common (e : Element Float) :
    Keyed.keys (commonSchema.encodeMembers e) = Keyed.keys defaults ++
      ((if e.label.isSome then ["label"] else []) ++
        if e.metadata.isSome then ["metadata"] else []) :=
  match e with
  | { label := none, metadata := none, .. } => rfl
  | { label := none, metadata := some _, .. } => rfl
  | { label := some _, metadata := none, .. } => rfl
  | { label := some _, metadata := some _, .. } => rfl

/-- The common attributes that are written of an object are those with a default, and the others if
they are set. -/
theorem keys_common (hms : (Keyed.keys ms).Nodup)
    (h : commonSchema.decodeMembers (commonPart name ms) = .ok e) :
    Keyed.keys (commonSchema.encodeMembers e) =
      Keyed.keys defaults ++ sparseKeys.filter (isSet ms) := by
  have hlabel : e.label.isSome = isSet ms "label" :=
    isSome_get_eq_isSet (List.mem_of_getElem? (i := 24) rfl) (fun _ _ => rfl) rfl hms h
  have hmetadata : e.metadata.isSome = isSet ms "metadata" :=
    isSome_get_eq_isSet (List.mem_of_getElem? (i := 25) rfl) (fun _ _ => rfl) rfl hms h
  rw [keys_encodeMembers_common, hlabel, hmetadata, sparseKeys, List.filter_cons, List.filter_cons,
    List.filter_nil]
  split <;> rfl

/-- No key is written twice. -/
theorem nodup_keys_encodeMembers (e : Element Float) : (Keyed.keys e.encodeMembers).Nodup := by
  have hcommon : (Keyed.keys (commonSchema.encodeMembers e)).Nodup :=
    List.Nodup.sublist (keys_common_sublist e) (by decide)
  have htype : "type" ∉ Keyed.keys (commonSchema.encodeMembers e) := fun htype =>
    absurd ((keys_common_sublist e).subset htype) (by decide)
  rw [common_eq_cons, Keyed.keys_cons, List.nodup_cons] at hcommon
  rw [common_eq_cons, Keyed.keys_cons, List.mem_cons, not_or] at htype
  refine Keyed.nodup_keys_putNew (Keyed.nodup_keys_putAll ?_ _) _
  simp only [List.cons_append, List.nil_append, Keyed.keys_cons, List.nodup_cons, List.mem_cons,
    not_or]
  exact ⟨⟨Ne.symm htype.1, hcommon.1⟩, htype.2, hcommon.2⟩

/-- The keys of the attributes, in the order in which they are written. -/
theorem keys_attributes (hms : (Keyed.keys ms).Nodup) {kind : ElementKind Float}
    (hkind : kind.Encodable)
    (h : commonSchema.decodeMembers (commonPart kind.name ms) = .ok e) (id : Json) :
    Keyed.keys (("id", id) :: ("type", .str kind.name) ::
      ((commonSchema.encodeMembers e).filter (·.1 != "id") ++ kind.encodeMembers)) =
        shownKeys kind.name ms := by
  have hcommon := keys_common hms h
  rw [common_eq_cons, Keyed.keys_cons] at hcommon
  have hrest : Keyed.keys ((commonSchema.encodeMembers e).filter (·.1 != "id")) =
      (Keyed.keys defaults).erase "id" ++ sparseKeys.filter (isSet ms) :=
    (List.cons.inj hcommon).2
  rw [Keyed.keys_cons, Keyed.keys_cons, Keyed.keys_append, hrest,
    ElementKind.keys_encodeMembers hkind, shownKeys]

/-- The members of the three groups are written. -/
theorem mem_encodeMembers (h : e.Encodable) {m : String × Json}
    (hm : m ∈ commonSchema.encodeMembers e ++ e.kind.encodeMembers ++ e.extra) :
    m ∈ e.encodeMembers :=
  (List.mem_filter.mp (filter_encodeMembers h ▸ hm)).1

/-- An attribute of an object that is not set is written as its default. -/
theorem mem_attributes_of_unset (hms : (Keyed.keys ms).Nodup) {kind : ElementKind Float}
    (helement : commonSchema.decodeMembers (commonPart name ms) = .ok e)
    (hkind : (ElementKind.reader name).decode (kindPart name ms) = .ok kind) {m : String × Json}
    (hm : m ∈ defaults ++ ElementKind.defaults name) (hset : isSet ms m.1 = false)
    (htext : name = "text" → m.1 ≠ "originalText") :
    m ∈ commonSchema.encodeMembers e ++ kind.encodeMembers := by
  rcases List.mem_append.mp hm with hm | hm
  · exact List.mem_append_left _ (mem_common_of_unset hms hm hset helement)
  · have hkey : m.1 ∈ (ElementKind.reader name).keys := by
      rw [ElementKind.keys_reader_eq]
      exact List.mem_map_of_mem hm
    have hpart : m.1 ∉ Keyed.keys (kindPart name ms) := by
      rw [mem_keys_kindPart hms hkey, hset]
      exact Bool.false_ne_true
    exact List.mem_append_right _ (ElementKind.mem_encodeMembers_of_notMem hm hpart htext hkind)

/-- A text that was first written as nothing is read from that, or from no member at all. -/
theorem originalText_of_mem_kindPart (hms : (Keyed.keys ms).Nodup)
    (h : isSet ms "originalText" = false ∨ ms.get? "originalText" = some (.str "")) :
    ∀ m ∈ kindPart name ms, m.1 = "originalText" → m.2 = .str "" := by
  rintro ⟨_, j⟩ hm rfl
  obtain ⟨hm, hknown⟩ := List.mem_filter.mp hm
  have hmem := (List.mem_filter.mp hm).1
  rcases h with hset | hget
  · have hnull : j.isNull = false := by simpa using (Bool.and_eq_true_iff.mp hknown).2
    exact absurd ((isSet_iff hms).mpr ⟨j, hmem, hnull⟩) (hset ▸ Bool.false_ne_true)
  · exact Option.some.inj ((Keyed.get?_of_mem hms hmem).symm.trans hget)

/-- An element that was read from an object shows the attributes of its kind, with defaults for
those that are absent or null there, and then all other members of the object as they were. -/
theorem shows_of_rewritten (hms : (Json.obj ms).WellFormed) {v : Json}
    (h : rewritten (.obj ms) = .ok v) :
    ∃ name out, ms.get? "type" = some (.str name) ∧ v = .obj out ∧ Shows name ms out := by
  obtain ⟨e, he, rfl⟩ := Json.decoded_map_eq_ok.mp h
  have hencodable := encodable_of_decode hms he
  have hnodup := nodup_keys_encodeMembers e
  have hshape := encodeMembers_eq hencodable
  have hmem : ∀ m ∈ commonSchema.encodeMembers e ++ e.kind.encodeMembers,
      e.encodeMembers.get? m.1 = some m.2 := fun m hm =>
    Keyed.get?_of_mem hnodup (mem_encodeMembers hencodable (List.mem_append_left _ hm))
  have hkeys := hms.keys_nodup
  obtain ⟨name, element, kind, hname, helement, hkind, rfl⟩ := decode_parts he
  have hvalues : ∀ m ∈ kindPart name ms, m.2.WellFormed := fun m hm =>
    hms.get? (Keyed.get?_of_mem hkeys (List.mem_filter.mp (List.mem_filter.mp hm).1).1)
  obtain ⟨-, rfl⟩ := ElementKind.encodable_of_decode hvalues hkind
  refine ⟨kind.name, _, hname, rfl, ?_, hnodup, ?_, ?_, ?_⟩
  · refine ⟨_, ?_, keys_attributes hkeys hencodable.kind helement (.str element.id)⟩
    rw [hshape]
    rfl
  · rw [hshape]
    rfl
  · intro m hm hset htext
    exact hmem m (mem_attributes_of_unset hkeys helement hkind hm hset htext)
  · intro htext hempty
    rw [htext] at hkind
    obtain ⟨text, hshown, horiginal⟩ := ElementKind.exists_text_mem_encodeMembers
      (Keyed.nodup_keys_filter (Keyed.nodup_keys_filter hkeys _) _)
      (originalText_of_mem_kindPart hkeys hempty) hkind
    exact (hmem _ (List.mem_append_right _ horiginal)).trans
      (hmem _ (List.mem_append_right _ hshown)).symm

/-- A text with members that are null, members of other kinds, and nothing first written. -/
def jotting : Members :=
  [("note", .null), ("label", .null), ("text", .str "hi"), ("x", .null), ("type", .str "text"),
    ("points", .arr [.int 1]), ("metadata", .obj []), ("originalText", .str "")]

/-- The text shows its metadata, and the members that are not known for texts. -/
theorem shows_jotting : (Json.obj jotting).WellFormed ∧
    unknownMembers "text" jotting = [("note", .null), ("points", .arr [.int 1])] ∧
    ∃ out, rewritten (.obj jotting) = .ok (.obj out) ∧ Shows "text" jotting out := by
  have hjotting : (Json.obj jotting).WellFormed := by
    refine .obj (by decide) ?_
    simp only [jotting, List.forall_mem_cons]
    exact ⟨.null, .null, .str _, .null, .str _,
      .arr (List.forall_mem_singleton.mpr (.num ⟨by decide, by decide⟩)),
      .obj (by decide) nofun, .str _, nofun⟩
  obtain ⟨v, hv⟩ : ∃ v, rewritten (.obj jotting) = .ok v := ⟨_, rfl⟩
  obtain ⟨name, out, hname, rfl, hshows⟩ := shows_of_rewritten hjotting hv
  obtain rfl : "text" = name := Json.str.inj (Option.some.inj hname)
  exact ⟨hjotting, rfl, out, hv, hshows⟩

end Element

end DiagramScene
