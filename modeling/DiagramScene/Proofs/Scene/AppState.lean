import Mathlib
import DiagramScene.Proofs.Keyed
import DiagramScene.Scene.Params

/-!
# The looks of a scene are settings again

The `AppState` of a scene is written as an object, and the members of this object may be given as
settings for another scene.  For the states that follow from what a caller asks for this gives the
same state again (`ofParams_encodeMembers`): their extra settings have distinct keys, and none of
these is reserved.
-/

namespace DiagramScene.AppState

/-- The extra settings have keys of their own. -/
structure Lawful (state : AppState) : Prop where
  nodup : (Keyed.keys state.extra).Nodup
  unreserved : ∀ key ∈ Keyed.keys state.extra, key ∉ reservedKeys

/-- A key that is not reserved is an extra setting. -/
theorem override_of_unreserved {key : String} (h : key ∉ reservedKeys) (state : AppState)
    (value : Json) :
    state.override key value = { state with extra := state.extra.put key value } := by
  have hcontains : reservedKeys.contains key = false := by simpa using h
  unfold override
  split
  · exact absurd (by decide) h
  · exact absurd (by decide) h
  · exact absurd (by decide) h
  · rw [hcontains]
    rfl

/-- A reserved key leaves the extra settings as they are. -/
theorem extra_override_of_reserved {key : String} (h : key ∈ reservedKeys) (state : AppState)
    (value : Json) : (state.override key value).extra = state.extra := by
  have hcontains : reservedKeys.contains key = true := by simpa using h
  unfold override
  split
  · rfl
  · rfl
  · rfl
  · rw [hcontains]
    rfl

/-- A setting keeps the extra settings in order. -/
theorem Lawful.override {state : AppState} (h : state.Lawful) (key : String) (value : Json) :
    (state.override key value).Lawful := by
  by_cases hkey : key ∈ reservedKeys
  · have hextra := extra_override_of_reserved hkey state value
    exact ⟨hextra ▸ h.nodup, hextra ▸ h.unreserved⟩
  · rw [override_of_unreserved hkey]
    refine ⟨Keyed.nodup_keys_put h.nodup key value, ?_⟩
    intro k hk
    rw [Keyed.keys_put] at hk
    split at hk
    · exact h.unreserved k hk
    · rcases List.mem_append.mp hk with hk | hk
      · exact h.unreserved k hk
      · exact List.mem_singleton.mp hk ▸ hkey

/-- The settings of an object keep the extra settings in order. -/
theorem Lawful.overrideAll {state : AppState} (h : state.Lawful) (settings : Members) :
    (state.overrideAll settings).Lawful := by
  induction settings generalizing state with
  | nil => exact h
  | cons m settings ih => exact ih (h.override m.1 m.2)

/-- The extra settings of a state that follows from what a caller asks for are in order. -/
theorem lawful_ofParams (params : OutputParams) : (ofParams params).Lawful := by
  have hstart : ∀ color dark shown, Lawful ⟨color, dark, shown, []⟩ :=
    fun _ _ _ => ⟨List.nodup_nil, nofun⟩
  unfold ofParams
  cases params.appState with
  | none => exact hstart _ _ _
  | some settings => exact (hstart _ _ _).overrideAll settings

/-- Extra settings with new keys are put behind those that are there. -/
theorem overrideAll_eq_append {state : AppState} {settings : Members}
    (hunreserved : ∀ key ∈ Keyed.keys settings, key ∉ reservedKeys) :
    state.overrideAll settings = { state with extra := state.extra.putAll settings } := by
  induction settings generalizing state with
  | nil => rfl
  | cons m settings ih =>
    rw [Keyed.keys_cons, List.forall_mem_cons] at hunreserved
    change (state.override m.1 m.2).overrideAll settings = _
    rw [override_of_unreserved hunreserved.1, ih hunreserved.2]
    rfl

/-- A state is written as its own settings, with the extra settings behind. -/
theorem encodeMembers_eq (state : AppState) : schema.encodeMembers state =
    [("viewBackgroundColor", .str state.viewBackgroundColor),
      ("exportWithDarkMode", .bool state.exportWithDarkMode),
      ("exportBackground", .bool state.exportBackground)] ++ state.extra := rfl

/-- The settings that a state is written as give the state again. -/
theorem ofParams_encodeMembers {state : AppState} (h : state.Lawful) {params : OutputParams}
    (hcolor : params.backgroundColor = none) (hdark : params.darkMode = none)
    (hsettings : params.appState = some (schema.encodeMembers state)) :
    ofParams params = state := by
  have hown : ofParams params =
      overrideAll ⟨state.viewBackgroundColor, state.exportWithDarkMode, state.exportBackground, []⟩
        state.extra := by
    rw [ofParams, hsettings, hcolor, hdark, encodeMembers_eq]
    rfl
  rw [hown, overrideAll_eq_append h.unreserved,
    Keyed.putAll_eq_append h.nodup fun _ _ => List.not_mem_nil, List.nil_append]

end DiagramScene.AppState
