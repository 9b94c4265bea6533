import Mathlib
import DiagramScene.Diagram.Config
import DiagramScene.Proofs.Json.Lawful

/-!
# Overrides, path by path

A path of keys leads through the objects of a value.  `LaidOver` says what stands at a path after
overrides have been laid over a value: what they have there if it is no object, nothing behind such
a value, what was there before where they say nothing, and the members of both where they have an
object.

Both operations go key by key, `merge` along the members of an object and `valueAt?` along a path,
so all that is needed of an object is the value of a single key (`get?_mergeMembers`).  From that
the value at a path follows by induction on the path (`valueAt?_merge`).
-/

namespace DiagramScene.Diagram

open Keyed (keys get? put)

/-! ### Laying values over others -/

/-- A value laid over what was there before, if there was something. -/
def laidOn (old : Option Json) (value : Json) : Json :=
  match old with
  | some j => merge j value
  | none => value

/-- What becomes of a value: it stays if no override is given. -/
def overlaid (old override : Option Json) : Option Json :=
  match override with
  | some value => some (laidOn old value)
  | none => old

/-- An override that is no object counts as it is. -/
theorem merge_value (d : Json) {o : Json} (h : o.members? = none) : merge d o = o := by
  cases o with
  | obj os => exact nomatch h
  | null | bool | num | str | arr => rfl

/-- Nothing has as many members as null. -/
theorem bind_members? (value : Option Json) :
    value.bind Json.members? = (value.getD .null).members? := by
  cases value <;> rfl

/-- A value with members is the object of these. -/
theorem eq_obj_of_members? {j : Json} {ms : Members} (h : j.members? = some ms) : j = .obj ms := by
  cases j with
  | obj ms' => exact congrArg Json.obj (Option.some.inj h)
  | null | bool | num | str | arr => exact nomatch h

/-- Any override takes the place of a value that is no object. -/
theorem merge_onto_value {d : Json} (h : d.members? = none) (o : Json) : merge d o = o := by
  cases d with
  | obj ms => exact nomatch h
  | null | bool | num | str | arr => cases o <;> rfl

/-- A value laid over nothing is a value laid over null. -/
theorem laidOn_eq (old : Option Json) (value : Json) :
    laidOn old value = merge (old.getD .null) value := by
  cases old with
  | none => exact (merge_onto_value rfl value).symm
  | some j => rfl

/-- An override for nothing is the value there. -/
theorem overlaid_none (override : Option Json) : overlaid none override = override := by
  cases override <;> rfl

/-! ### Members -/

/-- Members are laid over others one after the other. -/
theorem mergeMembers_cons (ms : Members) (m : String × Json) (os : Members) :
    mergeMembers ms (m :: os) = mergeMembers (put ms m.1 (laidOn (get? ms m.1) m.2)) os := rfl

/-- Overrides for other keys leave the value of a key. -/
theorem get?_mergeMembers_of_notMem {os : Members} {key : String} (h : key ∉ keys os)
    (ms : Members) : get? (mergeMembers ms os) key = get? ms key := by
  induction os generalizing ms with
  | nil => rfl
  | cons m os ih =>
    rw [Keyed.keys_cons, List.mem_cons, not_or] at h
    rw [mergeMembers_cons, ih h.2, Keyed.get?_put, if_neg h.1]

/-- The value of a key after members have been laid over others. -/
theorem get?_mergeMembers {os : Members} (hos : (keys os).Nodup) (ms : Members) (key : String) :
    get? (mergeMembers ms os) key = overlaid (get? ms key) (get? os key) := by
  induction os generalizing ms with
  | nil => rfl
  | cons m os ih =>
    obtain ⟨k, v⟩ := m
    rw [Keyed.keys_cons, List.nodup_cons] at hos
    rw [mergeMembers_cons]
    by_cases hkey : key = k
    · -- The key is given here, so not by any of the members that follow.
      subst hkey
      rw [get?_mergeMembers_of_notMem hos.1, Keyed.get?_put_self]
      simp [get?, overlaid]
    · have hne : (key == k) = false := by simpa using hkey
      rw [ih hos.2, Keyed.get?_put, if_neg hkey]
      simp only [get?, List.lookup_cons, hne]

/-- The keys keep their places, and new ones come behind them in the order of the overrides. -/
theorem keys_mergeMembers {os : Members} (hos : (keys os).Nodup) (ms : Members) :
    keys (mergeMembers ms os) = keys ms ++ (keys os).filter (· ∉ keys ms) := by
  induction os generalizing ms with
  | nil => exact (List.append_nil _).symm
  | cons m os ih =>
    obtain ⟨k, v⟩ := m
    rw [Keyed.keys_cons, List.nodup_cons] at hos
    rw [mergeMembers_cons, ih hos.2, Keyed.keys_put, Keyed.keys_cons]
    by_cases hk : k ∈ keys ms
    · rw [if_pos hk, List.filter_cons_of_neg (by simpa using hk)]
    · -- The new key is none of those that follow, so they are told apart as before.
      have hfilter : (keys os).filter (· ∉ keys ms ++ [k]) = (keys os).filter (· ∉ keys ms) := by
        refine List.filter_congr fun key hkey => ?_
        have hne : key ≠ k := fun h => hos.1 (h ▸ hkey)
        simp [hne]
      rw [if_neg hk, List.filter_cons_of_pos (by simpa using hk), hfilter, List.append_assoc,
        List.singleton_append]

/-- Members that change no value of others change nothing when they are laid over them. -/
theorem mergeMembers_eq_self {ms os : Members}
    (h : ∀ m ∈ os, ∃ v, get? ms m.1 = some v ∧ merge v m.2 = v) : mergeMembers ms os = ms := by
  induction os with
  | nil => rfl
  | cons m os ih =>
    rw [List.forall_mem_cons] at h
    obtain ⟨⟨v, hv, hmerge⟩, hrest⟩ := h
    have hput : put ms m.1 (laidOn (get? ms m.1) m.2) = ms := by
      rw [hv, laidOn, hmerge, Keyed.put_get? hv]
    rw [mergeMembers_cons, hput, ih hrest]

/-- Overrides that are laid over a value a second time change nothing. -/
theorem merge_merge {o : Json} (ho : o.WellFormed) (d : Json) :
    merge (merge d o) o = merge d o := by
  induction ho generalizing d with
  | null | bool | num | str | arr => rfl
  | @obj os hos _ ih =>
    cases hd : d.members? with
    | none =>
      rw [merge_onto_value hd]
      refine congrArg Json.obj (mergeMembers_eq_self fun m hm => ?_)
      -- A value that was laid over nothing is laid over itself the second time.
      have hself := ih m hm .null
      rw [merge_onto_value (d := .null) rfl] at hself
      exact ⟨m.2, Keyed.get?_of_mem hos hm, hself⟩
    | some ms =>
      obtain rfl := eq_obj_of_members? hd
      refine congrArg Json.obj (mergeMembers_eq_self fun m hm => ?_)
      refine ⟨laidOn (get? ms m.1) m.2, ?_, ?_⟩
      · rw [get?_mergeMembers hos, Keyed.get?_of_mem hos hm, overlaid]
      · rw [laidOn_eq, ih m hm]

/-! ### Paths -/

/-- A path goes on behind a value that is no object. -/
def GoesBehind (path : List String) (j : Json) : Prop :=
  ∃ front, front <+: path ∧ front ≠ path ∧ ∃ v, valueAt? front j = some v ∧ v.members? = none

/-- The keys of the object at a path; none if there is no object. -/
def keysAt (path : List String) (j : Json) : List String :=
  (((valueAt? path j).bind Json.members?).map keys).getD []

/-- What stands at a path after overrides have been laid over a value. -/
structure LaidOver (d o : Json) (path : List String) (result : Option Json) : Prop where
  /-- An override that is no object counts as it is. -/
  override : ∀ v, valueAt? path o = some v → v.members? = none → result = some v
  /-- There is nothing behind an override that is no object. -/
  behind : GoesBehind path o → result = none
  /-- What the overrides do not reach stays. -/
  kept : valueAt? path o = none → ¬ GoesBehind path o → result = valueAt? path d
  /-- Where an object is given, the keys of the object that was there come first. -/
  object : ∀ os, valueAt? path o = some (.obj os) → ∃ rs, result = some (.obj rs) ∧
    keys rs = keysAt path d ++ (keys os).filter (· ∉ keysAt path d)

/-- A path goes one key at a time. -/
theorem valueAt?_cons (key : String) (path : List String) (j : Json) :
    valueAt? (key :: path) j = (j.get? key).bind (valueAt? path) := rfl

/-- A value that is no object has no values of keys. -/
theorem get?_of_members?_eq_none {j : Json} (h : j.members? = none) (key : String) :
    j.get? key = none := by
  rw [Json.get?, h]
  rfl

/-- The value of a key after overrides have been laid over a value. -/
theorem get?_merge {os : Members} (hos : (keys os).Nodup) (d : Json) (key : String) :
    (merge d (.obj os)).get? key = overlaid (d.get? key) (get? os key) := by
  cases hd : d.members? with
  | none =>
    rw [merge_onto_value hd, get?_of_members?_eq_none hd, overlaid_none]
    rfl
  | some ms =>
    obtain rfl := eq_obj_of_members? hd
    exact get?_mergeMembers hos ms key

/-- A well-formed value has well-formed values at all paths. -/
theorem wellFormed_of_valueAt? {j v : Json} (hj : j.WellFormed) {path : List String}
    (hv : valueAt? path j = some v) : v.WellFormed := by
  induction path generalizing j with
  | nil => exact Option.some.inj hv ▸ hj
  | cons key path ih =>
    obtain ⟨w, hw, hrest⟩ := Option.bind_eq_some_iff.mp hv
    cases j with
    | obj ms => exact ih (hj.get? hw) hrest
    | null | bool | num | str | arr => exact nomatch hw

/-- The empty path goes behind nothing. -/
theorem not_goesBehind_nil (j : Json) : ¬ GoesBehind [] j := by
  rintro ⟨front, hfront, hne, -⟩
  exact hne (List.prefix_nil.mp hfront)

/-- A path with a key goes behind a value that is no object. -/
theorem goesBehind_cons_value {j : Json} (h : j.members? = none) (key : String)
    (path : List String) : GoesBehind (key :: path) j :=
  ⟨[], List.nil_prefix, (List.cons_ne_nil key path).symm, j, rfl, h⟩

/-- A path goes behind a value in an object if its rest does so in the value of its first key. -/
theorem goesBehind_cons_obj {key : String} {path : List String} {ms : Members} :
    GoesBehind (key :: path) (.obj ms) ↔ ∃ v, get? ms key = some v ∧ GoesBehind path v := by
  constructor
  · rintro ⟨front, hfront, hne, w, hw, hvalue⟩
    cases front with
    | nil =>
      obtain rfl : Json.obj ms = w := Option.some.inj hw
      exact nomatch hvalue
    | cons key' front =>
      obtain ⟨rfl, hrest⟩ := List.cons_prefix_cons.mp hfront
      obtain ⟨v, hv, hw⟩ := Option.bind_eq_some_iff.mp hw
      exact ⟨v, hv, front, hrest, fun h => hne (h ▸ rfl), w, hw, hvalue⟩
  · rintro ⟨v, hv, front, hfront, hne, w, hw, hvalue⟩
    refine ⟨key :: front, List.cons_prefix_cons.mpr ⟨rfl, hfront⟩, ?_, w, ?_, hvalue⟩
    · exact fun h => hne (List.cons.inj h).2
    · exact Option.bind_eq_some_iff.mpr ⟨v, hv, hw⟩

/-- A path that does not go behind an override is overridden like a single value. -/
theorem valueAt?_merge {o : Json} (ho : o.WellFormed) (d : Json) {path : List String}
    (h : ¬ GoesBehind path o) :
    valueAt? path (merge d o) = overlaid (valueAt? path d) (valueAt? path o) := by
  induction path generalizing d o with
  | nil => rfl
  | cons key path ih =>
    cases o with
    | null | bool | num | str | arr => exact absurd (goesBehind_cons_value rfl key path) h
    | obj os =>
      rw [valueAt?_cons, get?_merge ho.keys_nodup, valueAt?_cons, valueAt?_cons]
      change _ = overlaid _ ((get? os key).bind (valueAt? path))
      cases hv : get? os key with
      | none => rfl
      | some v =>
        have hrest : ¬ GoesBehind path v := fun hv' => h (goesBehind_cons_obj.mpr ⟨v, hv, hv'⟩)
        have hmerge := fun j => ih (ho.get? hv) j hrest
        cases d.get? key with
        | some old => exact hmerge old
        | none => exact (overlaid_none _).symm

/-- A path that goes behind an override leads to nothing. -/
theorem valueAt?_merge_of_goesBehind {o : Json} (ho : o.WellFormed) (d : Json) {path : List String}
    (h : GoesBehind path o) : valueAt? path (merge d o) = none := by
  induction path generalizing d o with
  | nil => exact absurd h (not_goesBehind_nil o)
  | cons key path ih =>
    rw [valueAt?_cons]
    cases o with
    | null | bool | num | str | arr => rfl
    | obj os =>
      obtain ⟨v, hv, h⟩ := goesBehind_cons_obj.mp h
      rw [get?_merge ho.keys_nodup, hv, overlaid, laidOn_eq]
      exact ih (ho.get? hv) _ h

/-- A path that goes behind a value leads to nothing. -/
theorem not_goesBehind {j v : Json} (hj : j.WellFormed) {path : List String}
    (hv : valueAt? path j = some v) : ¬ GoesBehind path j := by
  intro h
  have hnone := valueAt?_merge_of_goesBehind hj .null h
  rw [merge_onto_value rfl, hv] at hnone
  exact nomatch hnone

/-- Overrides are laid over a value at every path. -/
theorem laidOver_merge {o : Json} (ho : o.WellFormed) (d : Json) (path : List String) :
    LaidOver d o path (valueAt? path (merge d o)) where
  override v hv hvalue := by
    rw [valueAt?_merge ho d (not_goesBehind ho hv), hv, overlaid, laidOn_eq, merge_value _ hvalue]
  behind h := valueAt?_merge_of_goesBehind ho d h
  kept hnone h := by rw [valueAt?_merge ho d h, hnone, overlaid]
  object os hos := by
    have hnodup := (wellFormed_of_valueAt? ho hos).keys_nodup
    rw [valueAt?_merge ho d (not_goesBehind ho hos), hos, overlaid, laidOn_eq, keysAt,
      bind_members?]
    cases hd : ((valueAt? path d).getD .null).members? with
    | none =>
      rw [merge_onto_value hd]
      exact ⟨os, rfl, by simp⟩
    | some ms =>
      rw [eq_obj_of_members? hd]
      exact ⟨mergeMembers ms os, rfl, keys_mergeMembers hnodup ms⟩

/-- Overrides are laid over a value at every path, and laying them over it again changes nothing.
The settings of a layout are the defaults with the overrides of the caller laid over them. -/
theorem merge_laidOver (d : Json) {o : Json} (ho : o.WellFormed) :
    (∀ path, LaidOver d o path (valueAt? path (merge d o))) ∧
      merge (merge d o) o = merge d o ∧
      ∀ path : String,
        LaidOver defaultConfig o (pathKeys path) (setting? (configFor (some o)) path) :=
  ⟨laidOver_merge ho d, merge_merge ho d,
    fun path => laidOver_merge ho defaultConfig (pathKeys path)⟩

/-- Overrides that give an object more members, set a value to null, and put a value in the place of
an object. -/
def mixedOverrides : Json :=
  .obj [
    ("class", .obj [("htmlLabels", .null), ("curve", .obj [("kind", .str "basis")])]),
    ("flowchart", .str "compact")]

/-- What the settings are with these overrides. -/
theorem merge_mixedOverrides : mixedOverrides.WellFormed ∧
    merge (merge defaultConfig mixedOverrides) mixedOverrides =
      merge defaultConfig mixedOverrides ∧
    setting? (configFor (some mixedOverrides)) "class.htmlLabels" = some .null ∧
    setting? (configFor (some mixedOverrides)) "flowchart.htmlLabels" = none := by
  have hwellFormed : mixedOverrides.WellFormed := by
    refine .obj (by decide) ?_
    simp only [List.forall_mem_cons]
    refine ⟨.obj (by decide) ?_, .str _, nofun⟩
    simp only [List.forall_mem_cons]
    refine ⟨.null, .obj (by decide) ?_, nofun⟩
    simp only [List.forall_mem_cons]
    exact ⟨.str _, nofun⟩
  obtain ⟨-, htwice, hsettings⟩ := merge_laidOver defaultConfig hwellFormed
  refine ⟨hwellFormed, htwice, (hsettings _).override .null rfl rfl, (hsettings _).behind ?_⟩
  exact ⟨["flowchart"], ⟨["htmlLabels"], rfl⟩, by decide, .str "compact", rfl, rfl⟩

end DiagramScene.Diagram
