import Mathlib
import DiagramScene.Proofs.Text.Trim
import DiagramScene.Proofs.Text.Utf8
import DiagramScene.Raster.Color

/-!
# Texts of colors

The color behind a number sign is read from bytes, and their number decides how many of them stand
for a channel.  `HasDigits` gives the digits of a color in each of the four layouts, and a color is
read from bytes exactly if they are its digits (`ofBytes?_eq_some_iff`).  No byte of a character
that is not ASCII is a digit, so the bytes of a text are digits only where its characters are
(`areDigits_encode_iff`).

The main statement is `reads_colors`: it says which texts are read, and as which colors.
-/

namespace DiagramScene.Raster

/-! ### Digits -/

/-- The character of a hexadecimal digit, in lower case. -/
def hexChar (d : Fin 16) : Char := Nat.digitChar d

/-- Different digits have different characters. -/
theorem hexChar_injective : Function.Injective hexChar := by decide

/-- The characters of digits are ASCII. -/
theorem toNat_hexChar_lt (d : Fin 16) : (hexChar d).toNat < 0x80 := by
  revert d
  decide

/-- The characters that are read as digits are those of the digits. -/
theorem hexDigit?_eq_some_iff {c : Char} {n : Nat} :
    hexDigit? c = some n ↔ ∃ d : Fin 16, c = hexChar d ∧ n = d := by
  constructor
  · intro h
    unfold hexDigit? at h
    split at h
    · rename_i hdigit
      obtain rfl := Option.some.inj h
      have hlow : 48 ≤ c.toNat := hdigit.1
      have hhigh : c.toNat ≤ 57 := hdigit.2
      have hten : c.toNat - 48 < 10 := by omega
      refine ⟨⟨c.toNat - 48, by omega⟩, ?_, rfl⟩
      rw [hexChar, ← Char.toNat_inj, Nat.toNat_digitChar_of_lt_ten hten]
      omega
    · obtain ⟨hletter, hvalue⟩ := Option.ite_none_right_eq_some.mp h
      obtain rfl := Option.some.inj hvalue
      have hlow : 97 ≤ c.toNat := hletter.1
      have hhigh : c.toNat ≤ 102 := hletter.2
      have hletters : ∀ code, 97 ≤ code → code ≤ 102 →
          Char.ofNat code = Nat.digitChar (code - 97 + 10) := by
        intro code _ _
        interval_cases code <;> rfl
      refine ⟨⟨c.toNat - 97 + 10, by omega⟩, ?_, rfl⟩
      rw [hexChar, ← hletters c.toNat hlow hhigh, Char.ofNat_toNat]
  · rintro ⟨d, rfl, rfl⟩
    revert d
    decide

/-- The value of two digits. -/
theorem toNat_byteOf (d d' : Fin 16) : (byteOf d d').toNat = 16 * d + d' := by
  have hlt : 16 * (d : Nat) + d' < UInt8.size := by
    rw [UInt8.size]
    omega
  rw [byteOf, UInt8.toNat_ofNat_of_lt' hlt]

/-- A channel has the value of two digits. -/
theorem channel?_eq_some_iff {high low v : UInt8} :
    channel? high low = some v ↔ ∃ d d' : Fin 16,
      Char.ofUInt8 high = hexChar d ∧ Char.ofUInt8 low = hexChar d' ∧ v.toNat = 16 * d + d' := by
  simp only [channel?, Option.bind_eq_bind, Option.bind_eq_some_iff, hexDigit?_eq_some_iff,
    Option.some.injEq]
  constructor
  · rintro ⟨_, ⟨d, hhigh, rfl⟩, _, ⟨d', hlow, rfl⟩, rfl⟩
    exact ⟨d, d', hhigh, hlow, toNat_byteOf d d'⟩
  · rintro ⟨d, d', hhigh, hlow, hvalue⟩
    refine ⟨d, ⟨d, hhigh, rfl⟩, d', ⟨d', hlow, rfl⟩, ?_⟩
    rw [← UInt8.toNat_inj, toNat_byteOf, hvalue]

namespace Rgba

/-- The digits of a color, two for each channel.  The digits of an opacity that is full may be left
out, and two digits that are the same may be written once if those of all channels are. -/
inductive HasDigits (c : Rgba) : List (Fin 16) → Prop
  | channels {r r' g g' b b' a a' : Fin 16} (red : c.red.toNat = 16 * r + r')
      (green : c.green.toNat = 16 * g + g') (blue : c.blue.toNat = 16 * b + b')
      (alpha : c.alpha.toNat = 16 * a + a') : HasDigits c [r, r', g, g', b, b', a, a']
  | solid {r r' g g' b b' : Fin 16} :
      HasDigits c [r, r', g, g', b, b', 15, 15] → HasDigits c [r, r', g, g', b, b']
  | doubled {r g b a : Fin 16} : HasDigits c [r, r, g, g, b, b, a, a] → HasDigits c [r, g, b, a]
  | doubledSolid {r g b : Fin 16} : HasDigits c [r, r, g, g, b, b] → HasDigits c [r, g, b]

/-- The bytes are the characters of the digits. -/
def AreDigits (bytes : Bytes) (ds : List (Fin 16)) : Prop :=
  List.Forall₂ (fun b d => Char.ofUInt8 b = hexChar d) bytes ds

/-- A digit for each channel says the same as that digit twice. -/
theorem ofBytes?_doubled (r g b a : UInt8) :
    ofBytes? [r, g, b, a] = ofBytes? [r, r, g, g, b, b, a, a] := rfl

theorem ofBytes?_doubledSolid (r g b : UInt8) :
    ofBytes? [r, g, b] = ofBytes? [r, r, g, g, b, b] := rfl

/-- Without digits the opacity is full. -/
theorem ofBytes?_solid (r r' g g' b b' : UInt8) :
    ofBytes? [r, r', g, g', b, b'] = ofBytes? [r, r', g, g', b, b', 102, 102] := by
  have hfull : channel? 102 102 = some channelMax := rfl
  simp [ofBytes?, hfull]

/-- A color is read from the bytes of its digits. -/
theorem HasDigits.ofBytes?_eq {c : Rgba} {ds : List (Fin 16)} (h : c.HasDigits ds) {bytes : Bytes}
    (hbytes : AreDigits bytes ds) : ofBytes? bytes = some c := by
  induction h generalizing bytes with
  | channels red green blue alpha =>
    rcases hbytes with _ | ⟨hr, _ | ⟨hr', _ | ⟨hg, _ | ⟨hg', _ | ⟨hb, _ | ⟨hb', _ | ⟨ha, _ |
      ⟨ha', _ | _⟩⟩⟩⟩⟩⟩⟩⟩
    have hred := channel?_eq_some_iff.mpr ⟨_, _, hr, hr', red⟩
    have hgreen := channel?_eq_some_iff.mpr ⟨_, _, hg, hg', green⟩
    have hblue := channel?_eq_some_iff.mpr ⟨_, _, hb, hb', blue⟩
    have halpha := channel?_eq_some_iff.mpr ⟨_, _, ha, ha', alpha⟩
    simp [ofBytes?, hred, hgreen, hblue, halpha]
  | solid _ ih =>
    rcases hbytes with _ | ⟨hr, _ | ⟨hr', _ | ⟨hg, _ | ⟨hg', _ | ⟨hb, _ | ⟨hb', _ | _⟩⟩⟩⟩⟩⟩
    rw [ofBytes?_solid]
    exact ih (.cons hr (.cons hr' (.cons hg (.cons hg' (.cons hb (.cons hb'
      (.cons rfl (.cons rfl .nil))))))))
  | doubled _ ih =>
    rcases hbytes with _ | ⟨hr, _ | ⟨hg, _ | ⟨hb, _ | ⟨ha, _ | _⟩⟩⟩⟩
    rw [ofBytes?_doubled]
    exact ih (.cons hr (.cons hr (.cons hg (.cons hg (.cons hb (.cons hb
      (.cons ha (.cons ha .nil))))))))
  | doubledSolid _ ih =>
    rcases hbytes with _ | ⟨hr, _ | ⟨hg, _ | ⟨hb, _ | _⟩⟩⟩
    rw [ofBytes?_doubledSolid]
    exact ih (.cons hr (.cons hr (.cons hg (.cons hg (.cons hb (.cons hb .nil))))))

/-- Bytes from which a color is read are digits, of which there are three, four, six or eight. -/
theorem exists_areDigits {bytes : Bytes} {c : Rgba} (h : ofBytes? bytes = some c) :
    ∃ ds, AreDigits bytes ds ∧ ds.length ∈ [3, 4, 6, 8] := by
  unfold ofBytes? at h
  split at h
  · simp only [Option.bind_eq_bind, Option.bind_eq_some_iff, channel?_eq_some_iff] at h
    obtain ⟨_, ⟨r, _, hr, -⟩, _, ⟨g, _, hg, -⟩, _, ⟨b, _, hb, -⟩, -⟩ := h
    exact ⟨[r, g, b], .cons hr (.cons hg (.cons hb .nil)), by simp⟩
  · simp only [Option.bind_eq_bind, Option.bind_eq_some_iff, channel?_eq_some_iff] at h
    obtain ⟨_, ⟨r, _, hr, -⟩, _, ⟨g, _, hg, -⟩, _, ⟨b, _, hb, -⟩, _, ⟨a, _, ha, -⟩, -⟩ := h
    exact ⟨[r, g, b, a], .cons hr (.cons hg (.cons hb (.cons ha .nil))), by simp⟩
  · simp only [Option.bind_eq_bind, Option.bind_eq_some_iff, channel?_eq_some_iff] at h
    obtain ⟨_, ⟨r, r', hr, hr', -⟩, _, ⟨g, g', hg, hg', -⟩, _, ⟨b, b', hb, hb', -⟩, -⟩ := h
    exact ⟨[r, r', g, g', b, b'],
      .cons hr (.cons hr' (.cons hg (.cons hg' (.cons hb (.cons hb' .nil))))), by simp⟩
  · simp only [Option.bind_eq_bind, Option.bind_eq_some_iff, channel?_eq_some_iff] at h
    obtain ⟨_, ⟨r, r', hr, hr', -⟩, _, ⟨g, g', hg, hg', -⟩, _, ⟨b, b', hb, hb', -⟩, _,
      ⟨a, a', ha, ha', -⟩, -⟩ := h
    exact ⟨[r, r', g, g', b, b', a, a'], .cons hr (.cons hr' (.cons hg (.cons hg' (.cons hb
      (.cons hb' (.cons ha (.cons ha' .nil))))))), by simp⟩
  · cases h

/-- Three, four, six or eight digits are those of a color. -/
theorem exists_hasDigits_iff {ds : List (Fin 16)} :
    (∃ c : Rgba, c.HasDigits ds) ↔ ds.length ∈ [3, 4, 6, 8] := by
  constructor
  · rintro ⟨c, h⟩
    cases h <;> simp
  · intro h
    have hlong (r r' g g' b b' a a' : Fin 16) :
        (⟨byteOf r r', byteOf g g', byteOf b b', byteOf a a'⟩ : Rgba).HasDigits
          [r, r', g, g', b, b', a, a'] :=
      .channels (toNat_byteOf r r') (toNat_byteOf g g') (toNat_byteOf b b') (toNat_byteOf a a')
    simp only [List.mem_cons, List.not_mem_nil, or_false] at h
    rcases h with h | h | h | h
    · obtain ⟨r, g, b, rfl⟩ := List.length_eq_three.mp h
      exact ⟨_, .doubledSolid (.solid (hlong ..))⟩
    · obtain ⟨r, g, b, a, rfl⟩ := List.length_eq_four.mp h
      exact ⟨_, .doubled (hlong ..)⟩
    · rcases ds with _ | ⟨r, _ | ⟨r', _ | ⟨g, _ | ⟨g', _ | ⟨b, _ | ⟨b', _ | _⟩⟩⟩⟩⟩⟩ <;> simp at h
      exact ⟨_, .solid (hlong ..)⟩
    · rcases ds with _ | ⟨r, _ | ⟨r', _ | ⟨g, _ | ⟨g', _ | ⟨b, _ | ⟨b', _ | ⟨a, _ |
        ⟨a', _ | _⟩⟩⟩⟩⟩⟩⟩⟩ <;> simp at h
      exact ⟨_, hlong ..⟩

/-- A color is read from bytes exactly if they are its digits. -/
theorem ofBytes?_eq_some_iff {bytes : Bytes} {c : Rgba} :
    ofBytes? bytes = some c ↔ ∃ ds, AreDigits bytes ds ∧ c.HasDigits ds := by
  refine ⟨fun h => ?_, fun ⟨ds, hbytes, hdigits⟩ => hdigits.ofBytes?_eq hbytes⟩
  obtain ⟨ds, hbytes, hlength⟩ := exists_areDigits h
  obtain ⟨c', hdigits⟩ := exists_hasDigits_iff.mpr hlength
  have hsame : c' = c := Option.some.inj ((hdigits.ofBytes?_eq hbytes).symm.trans h)
  exact ⟨ds, hbytes, hsame ▸ hdigits⟩

/-! ### Texts -/

/-- The bytes of a text are digits exactly if its characters are.  No byte of a character that is
not ASCII is a digit. -/
theorem areDigits_encode_iff {cs : List Char} {ds : List (Fin 16)} :
    AreDigits (Text.Utf8.encode (String.ofList cs)) ds ↔ cs = ds.map hexChar := by
  rw [AreDigits, ← List.forall₂_map_left_iff (f := Char.ofUInt8) (R := fun c d => c = hexChar d),
    ← List.forall₂_map_right_iff (f := hexChar) (R := fun c d => c = d), List.forall₂_eq_eq_eq]
  constructor
  · intro h
    have hbytes : ∀ b ∈ Text.Utf8.encode (String.ofList cs), b.toNat < 0x80 := by
      intro b hb
      obtain ⟨d, -, hd⟩ := List.mem_map.mp (h ▸ List.mem_map_of_mem hb)
      have hlt : (Char.ofUInt8 b).toNat < 0x80 := hd ▸ toNat_hexChar_lt d
      exact hlt
    rwa [Text.Utf8.map_ofUInt8_encode (Text.Utf8.lt_of_forall_mem_encode hbytes)] at h
  · rintro rfl
    refine Text.Utf8.map_ofUInt8_encode fun c hc => ?_
    obtain ⟨d, -, rfl⟩ := List.mem_map.mp hc
    exact toNat_hexChar_lt d

/-- The color that is read from a number sign and its digits. -/
theorem ofHex?_eq_some_iff {cs : List Char} {c : Rgba} :
    ofHex? cs = some c ↔ ∃ ds, cs = '#' :: ds.map hexChar ∧ c.HasDigits ds := by
  unfold ofHex?
  split
  · simp [ofBytes?_eq_some_iff, areDigits_encode_iff]
  · rename_i hother
    constructor
    · intro h
      cases h
    · rintro ⟨ds, hds, -⟩
      exact absurd hds (hother _)

/-- A text as it is compared: without blank characters around it and in lower case. -/
def plain (text : String) : List Char := (Text.trimChars text.toList).map Char.toLower

/-- The characters name a color, by a name or by a number sign with its digits. -/
inductive Spells (cs : List Char) (c : Rgba) : Prop
  | name (mem : (String.ofList cs, c) ∈ named)
  | digits {ds : List (Fin 16)} (eq : cs = '#' :: ds.map hexChar) (digits : c.HasDigits ds)

/-- The color of a name. -/
theorem lookup_named_eq_some_iff {name : String} {c : Rgba} :
    named.lookup name = some c ↔ (name, c) ∈ named := by
  constructor
  · intro h
    obtain ⟨before, after, heq, -⟩ := List.lookup_eq_some_iff.mp h
    rw [heq]
    exact List.mem_append_right before List.mem_cons_self
  · intro h
    simp only [named, List.mem_cons, Prod.mk.injEq, List.not_mem_nil, or_false] at h
    rcases h with ⟨rfl, rfl⟩ | ⟨rfl, rfl⟩ | ⟨rfl, rfl⟩ <;> rfl

/-- No name begins with a number sign. -/
theorem lookup_named_numberSign (cs : List Char) :
    named.lookup (String.ofList ('#' :: cs)) = none := by
  have hother : ∀ p ∈ named, p.1.toList.head? ≠ some '#' := by decide
  rw [List.lookup_eq_none_iff]
  intro p hp
  rw [bne_iff_ne]
  intro heq
  exact hother p hp (by rw [← heq, String.toList_ofList, List.head?_cons])

/-- A text is looked up among the names first. -/
theorem parse?_eq (text : String) :
    parse? text = (named.lookup (String.ofList (plain text))).or (ofHex? (plain text)) := by
  unfold parse? plain
  dsimp only
  cases named.lookup (String.ofList ((Text.trimChars text.toList).map Char.toLower)) <;> rfl

/-- A color is read from a text exactly if the text spells it. -/
theorem parse?_eq_some_iff {text : String} {c : Rgba} :
    parse? text = some c ↔ Spells (plain text) c := by
  rw [parse?_eq, Option.or_eq_some_iff, lookup_named_eq_some_iff, ofHex?_eq_some_iff]
  constructor
  · rintro (hname | ⟨-, ds, hds, hdigits⟩)
    · exact .name hname
    · exact .digits hds hdigits
  · rintro (hname | ⟨hds, hdigits⟩)
    · exact .inl hname
    · exact .inr ⟨hds ▸ lookup_named_numberSign _, _, hds, hdigits⟩

/-- A text that spells a color is a name, or a number sign with three, four, six or eight digits
behind it. -/
theorem exists_spells_iff {cs : List Char} :
    (∃ c, Spells cs c) ↔ String.ofList cs ∈ ["transparent", "white", "black"] ∨
      ∃ ds : List (Fin 16), cs = '#' :: ds.map hexChar ∧ ds.length ∈ [3, 4, 6, 8] := by
  have hnames : named.map Prod.fst = ["transparent", "white", "black"] := rfl
  rw [← hnames, List.mem_map]
  constructor
  · rintro ⟨c, hname | ⟨hds, hdigits⟩⟩
    · exact .inl ⟨_, hname, rfl⟩
    · exact .inr ⟨_, hds, exists_hasDigits_iff.mp ⟨c, hdigits⟩⟩
  · rintro (⟨⟨_, c⟩, hname, rfl⟩ | ⟨ds, hds, hlength⟩)
    · exact ⟨c, .name hname⟩
    · obtain ⟨c, hdigits⟩ := exists_hasDigits_iff.mpr hlength
      exact ⟨c, .digits hds hdigits⟩

/-- A number sign with digits behind it. -/
def hexText (ds : List (Fin 16)) : String := String.ofList ('#' :: ds.map hexChar)

/-- Digits are in lower case, and none of them is blank. -/
theorem plain_hexText (ds : List (Fin 16)) : plain (hexText ds) = '#' :: ds.map hexChar := by
  have hdigit : ∀ d, Text.isBlank (hexChar d) = false ∧ (hexChar d).toLower = hexChar d := by decide
  have hblank : ∀ c ∈ '#' :: ds.map hexChar, Text.isBlank c = false := by
    rw [List.forall_mem_cons, List.forall_mem_map]
    exact ⟨rfl, fun d _ => (hdigit d).1⟩
  rw [plain, hexText, String.toList_ofList, Text.trimChars_of_not_blank hblank, List.map_cons,
    List.map_map]
  exact congrArg _ (List.map_congr_left fun d _ => (hdigit d).2)

/-- The color of digits. -/
theorem parse?_hexText_eq_some_iff {ds : List (Fin 16)} {c : Rgba} :
    parse? (hexText ds) = some c ↔ c.HasDigits ds := by
  rw [parse?_eq, plain_hexText, lookup_named_numberSign, Option.none_or, ofHex?_eq_some_iff]
  constructor
  · rintro ⟨ds', heq, hdigits⟩
    rwa [hexChar_injective.list_map (List.cons.inj heq).2]
  · exact fun hdigits => ⟨ds, rfl, hdigits⟩

/-- A color is written as its digits, two for each channel. -/
theorem toHex_eq (c : Rgba) : ∃ ds, c.toHex = hexText ds ∧ c.HasDigits ds := by
  have hchannel (v : UInt8) : ∃ d d' : Fin 16,
      channelText v = [hexChar d, hexChar d'] ∧ v.toNat = 16 * d + d' := by
    have hv := v.toNat_lt
    refine ⟨⟨v.toNat / 16, by omega⟩, ⟨v.toNat % 16, by omega⟩, rfl, ?_⟩
    exact (Nat.div_add_mod v.toNat 16).symm
  obtain ⟨r, r', hred, hr⟩ := hchannel c.red
  obtain ⟨g, g', hgreen, hg⟩ := hchannel c.green
  obtain ⟨b, b', hblue, hb⟩ := hchannel c.blue
  obtain ⟨a, a', halpha, ha⟩ := hchannel c.alpha
  refine ⟨[r, r', g, g', b, b', a, a'], ?_, .channels hr hg hb ha⟩
  simp [toHex, hexText, hred, hgreen, hblue, halpha]

/-- All characters of a text that spells a color are ASCII. -/
theorem Spells.lt {cs : List Char} {c : Rgba} (h : Spells cs c) : ∀ ch ∈ cs, ch.toNat < 0x80 := by
  cases h with
  | name hname =>
    have hnames : ∀ p ∈ named, ∀ ch ∈ p.1.toList, ch.toNat < 0x80 := by simp [named]
    simpa using hnames _ hname
  | digits hds _ =>
    rw [hds, List.forall_mem_cons, List.forall_mem_map]
    exact ⟨by decide, fun d _ => toNat_hexChar_lt d⟩

/-- No color is read from a text with a character that is not ASCII. -/
theorem parse?_eq_none_of_mem {text : String} {ch : Char} (hmem : ch ∈ Text.trimChars text.toList)
    (hch : 0x80 ≤ ch.toNat) : parse? text = none := by
  rw [Option.eq_none_iff_forall_ne_some]
  intro c hc
  have hlower : ch.toLower = ch := by
    refine Char.toLower_eq_of_not_isUpper fun hupper => ?_
    simp only [Char.isUpper, decide_eq_true_eq] at hupper
    have hle : ch.toNat ≤ 90 := hupper.2
    omega
  have hlt : ch.toNat < 0x80 :=
    (parse?_eq_some_iff.mp hc).lt ch (hlower ▸ List.mem_map_of_mem hmem)
  omega

/-- The digit for a channel may be written twice. -/
theorem parse?_doubled {ds : List (Fin 16)} (h : ds.length ∈ [3, 4]) :
    parse? (hexText ds) = parse? (hexText (ds.flatMap fun d => [d, d])) := by
  refine Option.ext fun c => ?_
  rw [parse?_hexText_eq_some_iff, parse?_hexText_eq_some_iff]
  simp only [List.mem_cons, List.not_mem_nil, or_false] at h
  rcases h with h | h
  · obtain ⟨r, g, b, rfl⟩ := List.length_eq_three.mp h
    refine ⟨fun h => ?_, .doubledSolid⟩
    cases h with
    | doubledSolid h => exact h
  · obtain ⟨r, g, b, a, rfl⟩ := List.length_eq_four.mp h
    refine ⟨fun h => ?_, .doubled⟩
    cases h with
    | doubled h => exact h

/-- Without digits of its own the opacity is full. -/
theorem HasDigits.alpha_eq {c : Rgba} {ds : List (Fin 16)} (h : c.HasDigits ds)
    (hlength : ds.length ∈ [3, 6]) : c.alpha = channelMax := by
  have hfull : ∀ {r r' g g' b b' : Fin 16}, c.HasDigits [r, r', g, g', b, b', 15, 15] →
      c.alpha = channelMax := by
    intro r r' g g' b b' h
    cases h with
    | channels _ _ _ halpha => exact UInt8.toNat_inj.mp halpha
  cases h with
  | channels _ _ _ _ => simp at hlength
  | doubled _ => simp at hlength
  | solid h => exact hfull h
  | doubledSolid h =>
    cases h with
    | solid h => exact hfull h

/-- A color is read from a text exactly if the text without the blank characters around it and in
lower case is one of three names, or a number sign with three, four, six or eight hexadecimal digits
behind it.  It has the channels that the digits say; a digit for a channel may be written twice, and
an opacity without digits is full.  A color that is written is read back. -/
theorem reads_colors :
    (∀ text, (∃ c, parse? text = some c) ↔
      String.ofList (plain text) ∈ ["transparent", "white", "black"] ∨
        ∃ ds : List (Fin 16), plain text = '#' :: ds.map hexChar ∧ ds.length ∈ [3, 4, 6, 8]) ∧
      (∀ text c, parse? text = some c ↔ Spells (plain text) c) ∧
      (∀ text, (∃ ch ∈ Text.trimChars text.toList, 0x80 ≤ ch.toNat) → parse? text = none) ∧
      (∀ ds, ds.length ∈ [3, 4] →
        parse? (hexText ds) = parse? (hexText (ds.flatMap fun d => [d, d]))) ∧
      (∀ ds c, ds.length ∈ [3, 6] → parse? (hexText ds) = some c → c.alpha = 255) ∧
      ∀ c, parse? c.toHex = some c := by
  refine ⟨fun text => ?_, fun text c => parse?_eq_some_iff,
    fun text ⟨ch, hmem, hch⟩ => parse?_eq_none_of_mem hmem hch, fun ds => parse?_doubled,
    fun ds c hlength hc => (parse?_hexText_eq_some_iff.mp hc).alpha_eq hlength, fun c => ?_⟩
  · rw [← exists_spells_iff]
    exact exists_congr fun c => parse?_eq_some_iff
  · obtain ⟨ds, htext, hdigits⟩ := toHex_eq c
    rw [htext]
    exact parse?_hexText_eq_some_iff.mpr hdigits

/-- Colors with blanks and capitals, and a character of two bytes among the digits. -/
theorem reads_colors_unevenTexts :
    parse? "\t#1E1e1e80 " = some ⟨30, 30, 30, 128⟩ ∧ parse? "#aé" = none := by
  obtain ⟨-, hspells, hother, -⟩ := reads_colors
  have hdigits : HasDigits ⟨30, 30, 30, 128⟩ [1, 14, 1, 14, 1, 14, 8, 0] :=
    .channels rfl rfl rfl rfl
  exact ⟨(hspells _ _).mpr (.digits (by decide) hdigits), hother _ ⟨'é', by decide, by decide⟩⟩

end Rgba

end DiagramScene.Raster
