import Mathlib
import DiagramScene.Proofs.Json.Depth
import DiagramScene.Proofs.Json.StringText

/-!
# Values and their texts

A well-formed value is read back from its compact text, if its floating point numbers are and if it
is not nested too deep for the limit (`read_compact_iff`).

The proof goes along the value.  `ReadsAt` is what it shows of each part: the part is read back in
front of whatever may stand behind it.  There is enough fuel for that in twice the number of bytes
of the part, because every array, object, item and member has a byte of its own for each call.
-/

namespace DiagramScene.Json

open Text.Utf8

mutual

/-- The floating point numbers in a value, in order. -/
def floats : Json → List Float
  | null | bool _ | num (.int _) | str _ => []
  | num (.float x) => [x]
  | arr xs => floatsOfItems xs
  | obj ms => floatsOfMembers ms

/-- The floating point numbers in the items of an array. -/
def floatsOfItems : List Json → List Float
  | [] => []
  | x :: xs => floats x ++ floatsOfItems xs

/-- The floating point numbers in the members of an object. -/
def floatsOfMembers : List (String × Json) → List Float
  | [] => []
  | (_, v) :: ms => floats v ++ floatsOfMembers ms

end

/-- The numbers in items are those in each of them. -/
theorem floatsOfItems_eq (items : List Json) : floatsOfItems items = items.flatMap floats := by
  induction items with
  | nil => rfl
  | cons j items ih => rw [floatsOfItems, ih, List.flatMap_cons]

/-- The numbers in members are those in each of their values. -/
theorem floatsOfMembers_eq (members : Members) :
    floatsOfMembers members = members.flatMap fun m => floats m.2 := by
  induction members with
  | nil => rfl
  | cons m members ih => rw [floatsOfMembers, ih, List.flatMap_cons]

/-- The floating point numbers in a value are all read back from their texts. -/
def FloatsReadBack (j : Json) : Prop := ∀ x ∈ j.floats, ReadsBack (.float x)

/-- The numbers in an item of an array. -/
theorem FloatsReadBack.item {items : List Json} (h : (arr items).FloatsReadBack) :
    ∀ j ∈ items, j.FloatsReadBack := by
  intro j hj x hx
  refine h x ?_
  rw [floats, floatsOfItems_eq]
  exact List.mem_flatMap.mpr ⟨j, hj, hx⟩

/-- The numbers in a member of an object. -/
theorem FloatsReadBack.member {members : Members} (h : (obj members).FloatsReadBack) :
    ∀ m ∈ members, m.2.FloatsReadBack := by
  intro m hm x hx
  refine h x ?_
  rw [floats, floatsOfMembers_eq]
  exact List.mem_flatMap.mpr ⟨m, hm, hx⟩

/-! ### The bytes of a text -/

/-- The bytes of the text of a value. -/
def bytesOf (j : Json) : Bytes := encode (compact j)

/-- The bytes of the text of a member. -/
def memberBytes (m : String × Json) : Bytes :=
  byte '"' :: (escapedBytes m.1.toList ++ byte '"' :: byte ':' :: bytesOf m.2)

/-- The bytes of items that stand behind others. -/
def followItems (items : List Json) : Bytes := items.flatMap fun j => byte ',' :: bytesOf j

/-- The bytes of members that stand behind others. -/
def followMembers (members : Members) : Bytes := members.flatMap fun m => byte ',' :: memberBytes m

/-- The bytes of texts with commas between them. -/
theorem encode_intercalate (s : String) (l : List String) :
    encode (",".intercalate (s :: l)) = encode s ++ l.flatMap fun t => byte ',' :: encode t := by
  induction l generalizing s with
  | nil => rw [String.intercalate_singleton, List.flatMap_nil, List.append_nil]
  | cons t l ih =>
    have hcomma : encode "," = [byte ','] := by decide +kernel
    rw [String.intercalate_cons_cons, encode_append, encode_append, ih, hcomma, List.flatMap_cons,
      List.append_assoc, List.singleton_append, List.cons_append]

/-- The bytes of a text between brackets. -/
theorem encode_between {opening closing : Char} (hopening : opening.toNat < 0x80)
    (hclosing : closing.toNat < 0x80) (body : String) :
    encode (between opening closing body) =
      byte opening :: (encode body ++ [byte closing]) := by
  have hchar {c : Char} (hc : c.toNat < 0x80) : encode c.toString = [byte c] := by
    rw [Char.toString, encode_eq_flatMap, String.toList_singleton, List.flatMap_cons,
      List.flatMap_nil, List.append_nil]
    exact utf8EncodeChar_of_lt hc
  rw [between, encode_append, encode_append, hchar hopening, hchar hclosing, List.append_assoc,
    List.singleton_append]

/-- The bytes of an array with items. -/
theorem bytesOf_arr_cons (j : Json) (items : List Json) :
    bytesOf (arr (j :: items)) =
      byte '[' :: (bytesOf j ++ (followItems items ++ [byte ']'])) := by
  have hitems : (compactItems items).flatMap (fun t => byte ',' :: encode t) =
      followItems items := by
    induction items with
    | nil => rfl
    | cons j items ih =>
      rw [compactItems, List.flatMap_cons, ih, followItems, followItems, List.flatMap_cons]
      rfl
  rw [bytesOf, compact, compactItems, encode_between (by decide) (by decide), encode_intercalate,
    hitems, List.append_assoc]
  rfl

/-- The bytes of an object with members. -/
theorem bytesOf_obj_cons (m : String × Json) (members : Members) :
    bytesOf (obj (m :: members)) =
      byte '\x7b' :: (memberBytes m ++ (followMembers members ++ [byte '\x7d'])) := by
  have hmember (m : String × Json) :
      encode (stringText m.1 ++ ":" ++ compact m.2) = memberBytes m := by
    have hcolon : encode ":" = [byte ':'] := by decide +kernel
    rw [encode_append, encode_append, encode_stringText, hcolon, memberBytes, bytesOf]
    simp
  have hmembers : (compactMembers members).flatMap (fun t => byte ',' :: encode t) =
      followMembers members := by
    induction members with
    | nil => rfl
    | cons m members ih =>
      rw [compactMembers, List.flatMap_cons, ih, hmember, followMembers, followMembers,
        List.flatMap_cons]
  rw [bytesOf, compact, compactMembers, encode_between (by decide) (by decide),
    encode_intercalate, hmembers, hmember, List.append_assoc]

/-! ### One step of the reader -/

section Steps

variable {fuel depth : Nat} {s t rest : Bytes}

/-- Where a value is read there is something other than a closing bracket, and spaces before it do
not count. -/
theorem exists_of_readValue_eq_ok {result : Json × Bytes}
    (h : readValue fuel depth s = .ok result) :
    ∃ b t, skipSpace s = b :: t ∧ b ≠ byte ']' ∧ readValue fuel depth (b :: t) = .ok result := by
  cases fuel with
  | zero =>
    unfold readValue at h
    exact nomatch h
  | succ fuel =>
    have hspace : skipSpace (skipSpace s) = skipSpace s := List.dropWhile_idempotent _ _
    cases hs : skipSpace s with
    | nil =>
      unfold readValue at h
      rw [hs] at h
      exact nomatch h
    | cons b t =>
      refine ⟨b, t, rfl, ?_, ?_⟩
      · rintro rfl
        unfold readValue at h
        rw [hs] at h
        exact nomatch h
      · rw [← hs]
        unfold readValue at h ⊢
        rw [hspace]
        exact h

/-- The first item of an array. -/
theorem readItems_first {item : Json} (h : readValue fuel depth s = .ok (item, rest)) :
    readItems (fuel + 1) depth [] s = readItems fuel depth [item] rest := by
  obtain ⟨b, t, hs, hne, hread⟩ := exists_of_readValue_eq_ok h
  rw [readItems, hs]
  dsimp only
  rw [if_neg hne, List.isEmpty_nil, if_pos rfl, hread]
  rfl

/-- One more item behind others. -/
theorem readItems_next {acc : List Json} (hacc : acc ≠ []) {item : Json}
    (h : readValue fuel depth s = .ok (item, rest)) :
    readItems (fuel + 1) depth acc (byte ',' :: s) = readItems fuel depth (item :: acc) rest := by
  obtain ⟨b, t, hs, hne, hread⟩ := exists_of_readValue_eq_ok h
  have hcomma : skipSpace (byte ',' :: s) = byte ',' :: s := rfl
  rw [readItems, hcomma]
  dsimp only
  rw [if_neg (by decide), List.isEmpty_eq_false_iff.mpr hacc, if_neg Bool.false_ne_true,
    if_pos rfl, hs]
  dsimp only
  rw [if_neg hne, hread]
  rfl

/-- The end of an array. -/
theorem readItems_close (acc : List Json) :
    readItems (fuel + 1) depth acc (byte ']' :: s) = .ok (arr acc.reverse, s) := by
  rw [readItems]
  rfl

/-- The first member of an object. -/
theorem readMembers_first :
    readMembers (fuel + 1) depth [] (byte '"' :: s) = readMember fuel depth [] s := by
  rw [readMembers]
  rfl

/-- One more member behind others. -/
theorem readMembers_next {acc : Members} (hacc : acc ≠ []) :
    readMembers (fuel + 1) depth acc (byte ',' :: byte '"' :: s) =
      readMember fuel depth acc s := by
  have hcomma : skipSpace (byte ',' :: byte '"' :: s) = byte ',' :: byte '"' :: s := rfl
  rw [readMembers, hcomma]
  dsimp only
  rw [if_neg (by decide), List.isEmpty_eq_false_iff.mpr hacc, if_neg Bool.false_ne_true,
    if_pos rfl]
  rfl

/-- The end of an object. -/
theorem readMembers_close (acc : Members) :
    readMembers (fuel + 1) depth acc (byte '\x7d' :: s) = .ok (obj acc, s) := by
  rw [readMembers]
  rfl

/-- A member after the opening quote of its key. -/
theorem readMember_eq (acc : Members) {key : String} {value : Json}
    (h : readValue fuel depth t = .ok (value, rest)) :
    readMember (fuel + 1) depth acc (escapedBytes key.toList ++ byte '"' :: byte ':' :: t) =
      readMembers fuel depth (acc.put key value) rest := by
  rw [readMember, readString_escapedBytes]
  change (readValue fuel depth t >>= fun read =>
    readMembers fuel depth (acc.put key read.1) read.2) = _
  rw [h]
  rfl

/-- An array that may be opened. -/
theorem readValue_arr :
    readValue (fuel + 1) (depth + 2) (byte '[' :: s) = readItems fuel (depth + 1) [] s := by
  rw [readValue]
  rfl

/-- An object that may be opened. -/
theorem readValue_obj :
    readValue (fuel + 1) (depth + 2) (byte '\x7b' :: s) = readMembers fuel (depth + 1) [] s := by
  rw [readValue]
  rfl

/-- A string. -/
theorem readValue_str (text : String) :
    readValue (fuel + 1) depth (byte '"' :: (escapedBytes text.toList ++ byte '"' :: rest)) =
      .ok (str text, rest) := by
  rw [readValue]
  change (readString (escapedBytes text.toList ++ byte '"' :: rest) >>= fun read =>
    .ok (str read.1, read.2)) = _
  rw [readString_escapedBytes]
  rfl

end Steps

/-! ### Values in front of a rest -/

/-- A byte that does not go on a number ends it. -/
theorem endsNumber_cons {b : UInt8}
    (h : isDigitByte b = false ∧ b ≠ byte '.' ∧ b ≠ byte 'e' ∧ b ≠ byte 'E') (s : Bytes) :
    EndsNumber (b :: s) := by
  rintro _ ⟨⟩
  exact h

/-- The value is read back from its text in front of a rest. -/
def ReadsAt (depth : Nat) (j : Json) : Prop :=
  ∀ fuel rest, 2 * (bytesOf j).length ≤ fuel → EndsNumber rest →
    readValue fuel depth (bytesOf j ++ rest) = .ok (j, rest)

/-- What stands behind an item ends a number. -/
theorem endsNumber_followItems (items : List Json) (rest : Bytes) :
    EndsNumber (followItems items ++ byte ']' :: rest) := by
  cases items with
  | nil => exact endsNumber_cons (by decide) rest
  | cons j items => exact endsNumber_cons (by decide) _

/-- What stands behind a member ends a number. -/
theorem endsNumber_followMembers (members : Members) (rest : Bytes) :
    EndsNumber (followMembers members ++ byte '\x7d' :: rest) := by
  cases members with
  | nil => exact endsNumber_cons (by decide) rest
  | cons m members => exact endsNumber_cons (by decide) _

variable {depth : Nat}

/-- Items behind others are read up to the end of the array. -/
theorem readItems_followItems {items : List Json} (h : ∀ j ∈ items, ReadsAt depth j)
    {acc : List Json} (hacc : acc ≠ []) {fuel : Nat}
    (hfuel : 2 * (followItems items).length < fuel) (rest : Bytes) :
    readItems fuel depth acc (followItems items ++ byte ']' :: rest) =
      .ok (arr (acc.reverse ++ items), rest) := by
  induction items generalizing acc fuel with
  | nil =>
    obtain ⟨fuel, rfl⟩ := Nat.exists_eq_succ_of_ne_zero (Nat.ne_zero_of_lt hfuel)
    rw [List.append_nil]
    exact readItems_close acc
  | cons j items ih =>
    obtain ⟨fuel, rfl⟩ := Nat.exists_eq_succ_of_ne_zero (Nat.ne_zero_of_lt hfuel)
    obtain ⟨hj, hitems⟩ := List.forall_mem_cons.mp h
    have hcons : followItems (j :: items) = byte ',' :: (bytesOf j ++ followItems items) := rfl
    rw [hcons, List.length_cons, List.length_append] at hfuel
    have hread := hj fuel _ (by omega) (endsNumber_followItems items rest)
    rw [hcons, List.cons_append, List.append_assoc, readItems_next hacc hread,
      ih hitems (List.cons_ne_nil j acc) (by omega), List.reverse_cons, List.append_assoc,
      List.singleton_append]

/-- A member is read, and the reader goes on with those behind it. -/
theorem readMember_memberBytes {m : String × Json} (hm : ReadsAt depth m.2) (acc : Members)
    {fuel : Nat} (hfuel : 2 * (bytesOf m.2).length ≤ fuel) {rest : Bytes}
    (hrest : EndsNumber rest) :
    readMember (fuel + 1) depth acc
        (escapedBytes m.1.toList ++ byte '"' :: byte ':' :: (bytesOf m.2 ++ rest)) =
      readMembers fuel depth (acc.put m.1 m.2) rest :=
  readMember_eq acc (hm fuel rest hfuel hrest)

/-- Members behind others are read up to the end of the object. -/
theorem readMembers_followMembers {members : Members} (h : ∀ m ∈ members, ReadsAt depth m.2)
    {acc : Members} (hacc : acc ≠ []) {fuel : Nat}
    (hfuel : 2 * (followMembers members).length < fuel) (rest : Bytes) :
    readMembers fuel depth acc (followMembers members ++ byte '\x7d' :: rest) =
      .ok (obj (acc.putAll members), rest) := by
  induction members generalizing acc fuel with
  | nil =>
    obtain ⟨fuel, rfl⟩ := Nat.exists_eq_succ_of_ne_zero (Nat.ne_zero_of_lt hfuel)
    exact readMembers_close acc
  | cons m members ih =>
    obtain ⟨hm, hmembers⟩ := List.forall_mem_cons.mp h
    have hcons : followMembers (m :: members) =
        byte ',' :: byte '"' :: (escapedBytes m.1.toList ++
          byte '"' :: byte ':' :: (bytesOf m.2 ++ followMembers members)) := by
      rw [followMembers, List.flatMap_cons, memberBytes]
      simp [followMembers]
    rw [hcons] at hfuel ⊢
    simp only [List.length_cons, List.length_append] at hfuel
    obtain ⟨fuel, rfl⟩ : ∃ n, fuel = n + 2 := ⟨fuel - 2, by omega⟩
    rw [List.cons_append, List.cons_append, readMembers_next hacc, List.append_assoc,
      List.cons_append, List.cons_append, List.append_assoc,
      readMember_memberBytes hm acc (by omega) (endsNumber_followMembers members rest),
      ih hmembers (Keyed.put_ne_nil acc m.1 m.2) (by omega)]
    rfl

/-- An array is read back, if its items are. -/
theorem readsAt_arr {items : List Json} (h : ∀ j ∈ items, ReadsAt (depth + 1) j) :
    ReadsAt (depth + 2) (arr items) := by
  intro fuel rest hfuel _
  cases items with
  | nil =>
    have hbytes : bytesOf (arr []) = [byte '[', byte ']'] := by decide +kernel
    rw [hbytes] at hfuel ⊢
    obtain ⟨fuel, rfl⟩ : ∃ n, fuel = n + 2 := Nat.exists_eq_add_of_le' (le_trans (by decide) hfuel)
    rw [List.cons_append, readValue_arr]
    exact readItems_close []
  | cons j items =>
    obtain ⟨hj, hitems⟩ := List.forall_mem_cons.mp h
    rw [bytesOf_arr_cons] at hfuel ⊢
    simp only [List.length_cons, List.length_append, List.length_nil] at hfuel
    obtain ⟨fuel, rfl⟩ : ∃ n, fuel = n + 2 := ⟨fuel - 2, by omega⟩
    have hread := hj fuel _ (by omega) (endsNumber_followItems items rest)
    rw [List.cons_append, readValue_arr, List.append_assoc, List.append_assoc,
      List.singleton_append, readItems_first hread,
      readItems_followItems hitems (List.cons_ne_nil j []) (by omega)]
    rfl

/-- An object is read back, if its keys are distinct and its values are read back. -/
theorem readsAt_obj {members : Members} (hkeys : members.keys.Nodup)
    (h : ∀ m ∈ members, ReadsAt (depth + 1) m.2) : ReadsAt (depth + 2) (obj members) := by
  intro fuel rest hfuel _
  cases members with
  | nil =>
    have hbytes : bytesOf (obj []) = [byte '\x7b', byte '\x7d'] := by decide +kernel
    rw [hbytes] at hfuel ⊢
    obtain ⟨fuel, rfl⟩ : ∃ n, fuel = n + 2 := Nat.exists_eq_add_of_le' (le_trans (by decide) hfuel)
    rw [List.cons_append, readValue_obj]
    exact readMembers_close []
  | cons m members =>
    obtain ⟨hm, hmembers⟩ := List.forall_mem_cons.mp h
    rw [bytesOf_obj_cons, memberBytes] at hfuel ⊢
    simp only [List.length_cons, List.length_append, List.length_nil] at hfuel
    obtain ⟨fuel, rfl⟩ : ∃ n, fuel = n + 3 := ⟨fuel - 3, by omega⟩
    have hall : Keyed.putAll (Keyed.put [] m.1 m.2) members = m :: members :=
      Keyed.putAll_eq_append (m := []) hkeys fun _ _ => List.not_mem_nil
    simp only [List.cons_append, List.append_assoc, List.nil_append]
    rw [readValue_obj, readMembers_first,
      readMember_memberBytes hm [] (by omega) (endsNumber_followMembers members rest),
      readMembers_followMembers hmembers (Keyed.put_ne_nil [] m.1 m.2) (by omega), hall]

/-- A literal name is read back. -/
theorem readIdent_append (value : Json) (expected rest : Bytes) :
    readIdent value expected (expected ++ rest) = .ok (value, rest) := by
  induction expected with
  | nil => rfl
  | cons e es ih => rw [List.cons_append, readIdent, if_pos rfl, ih]

/-- A value with a name is read back, if the first character of its name leads to the others. -/
theorem readsAt_name {j : Json} (c : Char) (name : String)
    (hbytes : bytesOf j = byte c :: name.toUTF8.toList)
    (hread : ∀ fuel s, readValue (fuel + 1) depth (byte c :: s) =
      readIdent j name.toUTF8.toList s) : ReadsAt depth j := by
  intro fuel rest hfuel _
  rw [hbytes, List.length_cons] at hfuel
  obtain ⟨fuel, rfl⟩ : ∃ n, fuel = n + 1 := ⟨fuel - 1, by omega⟩
  rw [hbytes, List.cons_append, hread, readIdent_append]

/-- A number that is read back is so in front of a rest. -/
theorem readsAt_num {n : Number} (h : ReadsBack n) : ReadsAt depth (num n) := by
  intro fuel rest hfuel hrest
  have hne : bytesOf (num n) ≠ [] := by
    intro hnil
    unfold ReadsBack at h
    rw [show encode (numberText n) = [] from hnil, readValue] at h
    cases h
  have hpos := List.length_pos_of_ne_nil hne
  obtain ⟨fuel, rfl⟩ : ∃ k, fuel = k + 1 := ⟨fuel - 1, by omega⟩
  exact readValue_num_append hrest h fuel depth

/-- A string is read back. -/
theorem readsAt_str (s : String) : ReadsAt depth (str s) := by
  intro fuel rest hfuel _
  have hbytes : bytesOf (str s) = byte '"' :: (escapedBytes s.toList ++ [byte '"']) :=
    encode_stringText s
  rw [hbytes, List.length_cons] at hfuel
  obtain ⟨fuel, rfl⟩ : ∃ n, fuel = n + 1 := ⟨fuel - 1, by omega⟩
  rw [hbytes, List.cons_append, List.append_assoc, List.singleton_append]
  exact readValue_str s

/-- A well-formed value is read back in front of a rest, if it is not nested too deep and its
floating point numbers are read back. -/
theorem readsAt_of_wellFormed {j : Json} (hj : j.WellFormed) (hfloats : j.FloatsReadBack)
    {n : Nat} (hdepth : j.depth ≤ n) : ReadsAt (n + 1) j := by
  induction hj generalizing n with
  | null =>
    refine readsAt_name 'n' "ull" (by decide +kernel) fun fuel s => ?_
    rw [readValue]
    rfl
  | bool b =>
    cases b with
    | true =>
      refine readsAt_name 't' "rue" (by decide +kernel) fun fuel s => ?_
      rw [readValue]
      rfl
    | false =>
      refine readsAt_name 'f' "alse" (by decide +kernel) fun fuel s => ?_
      rw [readValue]
      rfl
  | @num m hrange =>
    cases m with
    | int k => exact readsAt_num (readsBack_int hrange)
    | float x => exact readsAt_num (hfloats x (List.mem_singleton_self x))
  | str s => exact readsAt_str s
  | arr _ ih =>
    cases n with
    | zero => exact absurd hdepth (Nat.not_succ_le_zero _)
    | succ n =>
      refine readsAt_arr fun j hj => ih j hj (hfloats.item j hj) (depth_arr_le_iff.mp hdepth j hj)
  | obj hkeys _ ih =>
    cases n with
    | zero => exact absurd hdepth (Nat.not_succ_le_zero _)
    | succ n =>
      exact readsAt_obj hkeys fun m hm =>
        ih m hm (hfloats.member m hm) (depth_obj_le_iff.mp hdepth m hm)

/-! ### Whole texts -/

/-- A well-formed value whose numbers are read back is read back from its text, if it is not nested
as deep as the limit. -/
theorem read_compact {j : Json} (hj : j.WellFormed) (hfloats : j.FloatsReadBack) {limit : Nat}
    (hdepth : j.depth < limit) : read limit (encode (compact j)) = .ok j := by
  obtain ⟨n, rfl⟩ := Nat.exists_eq_succ_of_ne_zero (Nat.ne_zero_of_lt hdepth)
  have hread := readsAt_of_wellFormed hj hfloats (Nat.le_of_lt_succ hdepth)
    (2 * (bytesOf j).length + 2) [] (Nat.le_add_right _ 2) nofun
  rw [List.append_nil] at hread
  exact read_eq_ok_iff.mpr (readWhole_eq_ok_iff.mpr ⟨[], hread, rfl⟩)

/-- What is read from the text of such a value is the value itself, and it is read exactly if it is
not nested as deep as the limit. -/
theorem read_compact_iff {j : Json} (hj : j.WellFormed) (hfloats : j.FloatsReadBack) {limit : Nat}
    (hlimit : 0 < limit) {result : Json} :
    read limit (encode (compact j)) = .ok result ↔ result = j ∧ j.depth < limit := by
  constructor
  · intro h
    -- a limit that is high enough for the value finds the same
    have hhigh := read_of_le hlimit (Nat.le_add_right limit (j.depth + 1)) h
    rw [read_compact hj hfloats (by omega)] at hhigh
    cases hhigh
    exact ⟨rfl, depth_lt_of_read hlimit h⟩
  · rintro ⟨rfl, hdepth⟩
    exact read_compact hj hfloats hdepth

end DiagramScene.Json
