import Mathlib
import DiagramScene.Proofs.Json.Schema
import DiagramScene.Proofs.Scene.AppState

/-!
# Runs of settings

The settings of objects are laid over a state one after the other (`overrideRun`).  For each key the
last value counts that was given for it; of the values for a reserved key only those of its own type
count, and the others leave no trace.  `Overridden` says so of any settings, and settings behind
others are laid over what these made (`Overridden.trans`), so that a single setting is all there is
to look at (`overridden_override`).

A state is determined by what is seen of it in this way and by the order of its extra settings.  So
an object that was laid over a state makes no difference the second time
(`overrideAll_overrideAll`).  The main statement is `overridden_overrideRun`.
-/

namespace DiagramScene.AppState

open Json (Restores writes_all)
open Json.Codec (text_lawful bool_lawful)

/-! ### What was given last -/

section LastGiven

variable {γ : Type} (read : Json → Option γ)

/-- The last of the values given for a key that can be read. -/
def lastGiven (settings : Members) (key : String) : Option γ :=
  (settings.filterMap fun m => if m.1 = key then read m.2 else none).getLast?

/-- What comes later counts. -/
theorem lastGiven_append (settings others : Members) (key : String) :
    lastGiven read (settings ++ others) key =
      (lastGiven read others key).or (lastGiven read settings key) := by
  rw [lastGiven, List.filterMap_append, List.getLast?_append, lastGiven, lastGiven]

/-- A single setting gives its own value. -/
theorem lastGiven_singleton_self (key : String) (value : Json) :
    lastGiven read [(key, value)] key = read value := by
  rw [lastGiven, List.filterMap_cons, if_pos rfl]
  cases read value <;> rfl

/-- A single setting gives nothing for another key. -/
theorem lastGiven_singleton_of_ne {key key' : String} (h : key ≠ key') (value : Json) :
    lastGiven read [(key, value)] key' = none := by
  rw [lastGiven, List.filterMap_cons, if_neg h]
  rfl

end LastGiven

/-- A key that is among the settings has a last value. -/
theorem isSome_lastGiven {settings : Members} {key : String} (h : key ∈ Keyed.keys settings) :
    (lastGiven some settings key).isSome := by
  obtain ⟨m, hm, rfl⟩ := List.mem_map.mp h
  have hmem : m.2 ∈ settings.filterMap fun m' => if m'.1 = m.1 then some m'.2 else none :=
    List.mem_filterMap.mpr ⟨m, hm, if_pos rfl⟩
  rw [lastGiven, List.getLast?_isSome]
  exact List.ne_nil_of_mem hmem

/-! ### Settings over a state -/

/-- What a state is like after settings have been laid over another one. -/
structure Overridden (start : AppState) (settings : Members) (state : AppState) : Prop where
  viewBackgroundColor : state.viewBackgroundColor =
    (lastGiven Json.text? settings "viewBackgroundColor").getD start.viewBackgroundColor
  exportWithDarkMode : state.exportWithDarkMode =
    (lastGiven Json.bool? settings "exportWithDarkMode").getD start.exportWithDarkMode
  exportBackground : state.exportBackground =
    (lastGiven Json.bool? settings "exportBackground").getD start.exportBackground
  extra : ∀ key, key ∉ reservedKeys →
    Keyed.get? state.extra key = (lastGiven some settings key).or (Keyed.get? start.extra key)

namespace Overridden

/-- Without settings nothing changes. -/
theorem refl (state : AppState) : Overridden state [] state :=
  ⟨rfl, rfl, rfl, fun _ _ => rfl⟩

/-- Settings are laid over a state after others. -/
theorem trans {start middle state : AppState} {settings others : Members}
    (h : Overridden start settings middle) (h' : Overridden middle others state) :
    Overridden start (settings ++ others) state where
  viewBackgroundColor := by
    rw [lastGiven_append, Option.getD_or, h'.viewBackgroundColor, h.viewBackgroundColor]
  exportWithDarkMode := by
    rw [lastGiven_append, Option.getD_or, h'.exportWithDarkMode, h.exportWithDarkMode]
  exportBackground := by
    rw [lastGiven_append, Option.getD_or, h'.exportBackground, h.exportBackground]
  extra key hkey := by
    rw [lastGiven_append, Option.or_assoc, h'.extra key hkey, h.extra key hkey]

end Overridden

/-- A setting of a reserved key is laid over a state, if the value is of the right type. -/
theorem overridden_override_of_reserved {key : String} (h : key ∈ reservedKeys) (state : AppState)
    (value : Json) : Overridden state [(key, value)] (state.override key value) := by
  have hextra (key' : String) (hkey' : key' ∉ reservedKeys) :
      Keyed.get? (state.override key value).extra key' =
        (lastGiven some [(key, value)] key').or (Keyed.get? state.extra key') := by
    have hne : key ≠ key' := fun heq => hkey' (heq ▸ h)
    rw [extra_override_of_reserved h, lastGiven_singleton_of_ne some hne]
    rfl
  simp only [reservedKeys, List.mem_cons, List.not_mem_nil, or_false] at h
  -- The keys are known, so what was given for each of them is found by computation.
  rcases h with rfl | rfl | rfl <;> cases value <;> exact ⟨rfl, rfl, rfl, hextra⟩

/-- One setting is laid over a state. -/
theorem overridden_override (state : AppState) (key : String) (value : Json) :
    Overridden state [(key, value)] (state.override key value) := by
  by_cases hkey : key ∈ reservedKeys
  · exact overridden_override_of_reserved hkey state value
  · have hne {reserved : String} (h : reserved ∈ reservedKeys) : key ≠ reserved :=
      fun heq => hkey (heq ▸ h)
    rw [override_of_unreserved hkey]
    refine ⟨?_, ?_, ?_, fun key' _ => ?_⟩
    · rw [lastGiven_singleton_of_ne _ (hne (by decide))]
      rfl
    · rw [lastGiven_singleton_of_ne _ (hne (by decide))]
      rfl
    · rw [lastGiven_singleton_of_ne _ (hne (by decide))]
      rfl
    · rw [Keyed.get?_put]
      by_cases heq : key' = key
      · rw [heq, if_pos rfl, lastGiven_singleton_self]
        rfl
      · rw [if_neg heq, lastGiven_singleton_of_ne _ (Ne.symm heq)]
        rfl

/-- The settings of an object are laid over a state. -/
theorem overridden_overrideAll (state : AppState) (settings : Members) :
    Overridden state settings (state.overrideAll settings) := by
  induction settings generalizing state with
  | nil => exact .refl state
  | cons m settings ih => exact (overridden_override state m.1 m.2).trans (ih _)

/-! ### The same settings again -/

/-- States are equal if all that is seen of them is. -/
theorem eq_of_fields {state state' : AppState}
    (hcolor : state.viewBackgroundColor = state'.viewBackgroundColor)
    (hdark : state.exportWithDarkMode = state'.exportWithDarkMode)
    (hshown : state.exportBackground = state'.exportBackground)
    (hextra : state.extra = state'.extra) : state = state' := by
  cases state
  cases state'
  rw [mk.injEq]
  exact ⟨hcolor, hdark, hshown, hextra⟩

/-- Settings whose keys are there keep the extra settings in their places. -/
theorem keys_extra_overrideAll {state : AppState} {settings : Members}
    (h : ∀ key ∈ Keyed.keys settings, key ∉ reservedKeys → key ∈ Keyed.keys state.extra) :
    Keyed.keys (state.overrideAll settings).extra = Keyed.keys state.extra := by
  induction settings generalizing state with
  | nil => rfl
  | cons m settings ih =>
    rw [Keyed.keys_cons, List.forall_mem_cons] at h
    have hkeys : Keyed.keys (state.override m.1 m.2).extra = Keyed.keys state.extra := by
      by_cases hkey : m.1 ∈ reservedKeys
      · rw [extra_override_of_reserved hkey]
      · rw [override_of_unreserved hkey]
        exact (Keyed.keys_put _ _ _).trans (if_pos (h.1 hkey))
    exact (ih fun key hmem hkey => hkeys ▸ h.2 key hmem hkey).trans hkeys

/-- An object that was laid over a state makes no difference the second time. -/
theorem overrideAll_overrideAll {state : AppState} (h : state.Lawful) (settings : Members) :
    (state.overrideAll settings).overrideAll settings = state.overrideAll settings := by
  have hfirst := overridden_overrideAll state settings
  have hsecond := overridden_overrideAll (state.overrideAll settings) settings
  have hlawful := h.overrideAll settings
  have hkeys : Keyed.keys ((state.overrideAll settings).overrideAll settings).extra =
      Keyed.keys (state.overrideAll settings).extra := by
    refine keys_extra_overrideAll fun key hmem hkey => ?_
    obtain ⟨value, hvalue⟩ := Option.isSome_iff_exists.mp (isSome_lastGiven hmem)
    rw [Keyed.mem_keys_iff, hfirst.extra key hkey, hvalue]
    exact ⟨value, rfl⟩
  have hextra : ((state.overrideAll settings).overrideAll settings).extra =
      (state.overrideAll settings).extra := by
    refine Keyed.eq_of_get? hkeys (hlawful.overrideAll settings).nodup fun key => ?_
    -- A reserved key has no value on either side, and any other the last value given for it.
    by_cases hkey : key ∈ reservedKeys
    · have hnone {state : AppState} (h : state.Lawful) : Keyed.get? state.extra key = none :=
        Keyed.get?_eq_none_iff.mpr fun hmem => h.unreserved key hmem hkey
      rw [hnone hlawful, hnone (hlawful.overrideAll settings)]
    · rw [hsecond.extra key hkey, hfirst.extra key hkey, ← Option.or_assoc, Option.or_self]
  refine eq_of_fields ?_ ?_ ?_ hextra
  · rw [hsecond.viewBackgroundColor, hfirst.viewBackgroundColor, ← Option.getD_or, Option.or_self]
  · rw [hsecond.exportWithDarkMode, hfirst.exportWithDarkMode, ← Option.getD_or, Option.or_self]
  · rw [hsecond.exportBackground, hfirst.exportBackground, ← Option.getD_or, Option.or_self]

/-! ### Runs -/

/-- The state after the settings of objects, one after the other. -/
def overrideRun (state : AppState) (overrides : List Members) : AppState :=
  overrides.foldl overrideAll state

/-- The settings of objects are laid over a state one after the other. -/
theorem overridden_run (state : AppState) (overrides : List Members) :
    Overridden state overrides.flatten (state.overrideRun overrides) := by
  induction overrides generalizing state with
  | nil => exact .refl state
  | cons settings overrides ih => exact (overridden_overrideAll state settings).trans (ih _)

/-- A run of settings keeps the extra settings in order. -/
theorem Lawful.overrideRun {state : AppState} (h : state.Lawful) (overrides : List Members) :
    (state.overrideRun overrides).Lawful := by
  induction overrides generalizing state with
  | nil => exact h
  | cons settings overrides ih => exact ih (h.overrideAll settings)

/-- The state that follows from all that a caller asks for but the settings. -/
def initial (params : OutputParams) : AppState where
  viewBackgroundColor := params.backgroundColor.getD defaultBackground
  exportWithDarkMode := params.darkMode.getD false
  exportBackground := true
  extra := []

/-- The settings of a caller are laid over the state that follows from all else. -/
theorem overridden_ofParams (params : OutputParams) :
    Overridden (initial params) (params.appState.getD []) (ofParams params) := by
  unfold ofParams
  cases params.appState with
  | none => exact .refl _
  | some settings => exact overridden_overrideAll _ settings

/-! ### Writing and reading -/

/-- The other settings of a state are kept apart. -/
theorem keepsApart : Json.KeepsApart (fun state : AppState => state.extra)
    fun v s => { s with extra := v } where
  get_set _ _ := rfl
  set_set _ _ _ := rfl
  set_get _ := rfl

/-- A state is written as an object with distinct keys. -/
theorem Lawful.nodup_keys_encodeMembers {state : AppState} (h : state.Lawful) :
    (Keyed.keys (schema.encodeMembers state)).Nodup := by
  have hreserved : reservedKeys.Nodup := by decide
  rw [encodeMembers_eq, Keyed.keys_append]
  refine List.nodup_append.mpr ⟨hreserved, h.nodup, ?_⟩
  rintro key hkey key' hkey' rfl
  exact h.unreserved key hkey' hkey

/-- A state is read back from what it is written as. -/
theorem Lawful.decode_encode {state : AppState} (h : state.Lawful) :
    schema.codec.decode (schema.codec.encode state) = .ok state := by
  have hrestores : Restores (fun f => f.write state) schema.fields schema.start
      { state with extra := [] } :=
    .required (writes_all state) text_lawful True.intro <|
    .required (writes_all state) bool_lawful True.intro <|
    .default (writes_all state) bool_lawful True.intro .nil
  refine Json.Schema.decodeMembers_written_append rfl keepsApart (by decide) ?_ hrestores ?_
  · simp only [schema, List.forall_mem_cons]
    exact ⟨fun _ => rfl, fun _ => rfl, nofun, List.forall_mem_nil _⟩
  · intro m hm
    exact h.unreserved m.1 (List.mem_map_of_mem hm)

/-- The state that follows from what a caller asks for stays well formed under any run of settings.
No reserved key is an extra setting.  Each reserved key has the last value of its own type that was
given for it, every other key the last value of any type, or else what it had before.  The last
object makes no difference the second time, and the state is read back from the object that it is
written as. -/
theorem overridden_overrideRun (params : OutputParams) (overrides : List Members) :
    ((ofParams params).overrideRun overrides).Lawful ∧
      Overridden (ofParams params) overrides.flatten ((ofParams params).overrideRun overrides) ∧
      Overridden (initial params) (params.appState.getD []) (ofParams params) ∧
      (∀ settings ∈ overrides.getLast?,
        ((ofParams params).overrideRun overrides).overrideAll settings =
          (ofParams params).overrideRun overrides) ∧
      (Keyed.keys (schema.encodeMembers ((ofParams params).overrideRun overrides))).Nodup ∧
      schema.codec.decode (schema.codec.encode ((ofParams params).overrideRun overrides)) =
        .ok ((ofParams params).overrideRun overrides) := by
  have hlawful := (lawful_ofParams params).overrideRun overrides
  refine ⟨hlawful, overridden_run _ overrides, overridden_ofParams params, ?_,
    hlawful.nodup_keys_encodeMembers, hlawful.decode_encode⟩
  intro settings hlast
  obtain ⟨earlier, rfl⟩ := List.getLast?_eq_some_iff.mp hlast
  have hrun : (ofParams params).overrideRun (earlier ++ [settings]) =
      ((ofParams params).overrideRun earlier).overrideAll settings := List.foldl_concat ..
  rw [hrun]
  exact overrideAll_overrideAll ((lawful_ofParams params).overrideRun earlier) settings

/-- A caller who gives a reserved key a value of another type. -/
def mistypedParams : OutputParams :=
  { OutputParams.empty with
    backgroundColor := some "#111111"
    appState := some [("exportWithDarkMode", .str "yes"), ("gridSize", .int 20)] }

/-- Two objects, of which the second gives a reserved key a value of another type. -/
def mistypedRun : List Members :=
  [[("viewBackgroundColor", .str "#222222"), ("exportBackground", .int 0)],
    [("viewBackgroundColor", .null), ("gridSize", .int 10), ("exportWithDarkMode", .bool true)]]

/-- Values of other types leave no trace, and the second object makes no difference again. -/
theorem overrideRun_mistyped :
    (ofParams mistypedParams).overrideRun mistypedRun =
        ⟨"#222222", true, true, [("gridSize", .int 10)]⟩ ∧
      [("viewBackgroundColor", .null), ("gridSize", .int 10), ("exportWithDarkMode", .bool true)] ∈
        mistypedRun.getLast? ∧
      ((ofParams mistypedParams).overrideRun mistypedRun).overrideAll
          [("viewBackgroundColor", .null), ("gridSize", .int 10),
            ("exportWithDarkMode", .bool true)] =
        (ofParams mistypedParams).overrideRun mistypedRun :=
  ⟨rfl, rfl, (overridden_overrideRun mistypedParams mistypedRun).2.2.2.1 _ rfl⟩

end DiagramScene.AppState
