import Mathlib
import DiagramScene.Keyed

/-!
# Laws of keyed lists

A keyed list is read through `get?`, `contains` and `keys`.  This file says what the operations do
to these views: `put` keeps the place of a key and replaces its value, so in `ofList` the last entry
of a key counts and stands in the place of the first one.  To put entries that were put together
from two maps is to put those of the one and then those of the other (`putAll_putAll`).  Entries
with keys that are new and pairwise distinct are appended as they are, by `putAll` as well as by
`putNew`.
-/

namespace DiagramScene.Keyed

variable {β : Type}

/-! ### Reading -/

/-- The keys of an empty map. -/
@[simp] theorem keys_nil : keys ([] : Keyed β) = [] := rfl

/-- The keys of a map with a first entry. -/
@[simp] theorem keys_cons (e : String × β) (m : Keyed β) : keys (e :: m) = e.1 :: keys m := rfl

/-- The keys of two maps, one behind the other. -/
@[simp] theorem keys_append (m n : Keyed β) : keys (m ++ n) = keys m ++ keys n :=
  List.map_append

/-- A map contains exactly its keys. -/
@[simp] theorem contains_iff {m : Keyed β} {key : String} :
    contains m key = true ↔ key ∈ keys m := by
  simp [contains, keys, List.any_eq_true]

/-- A key has a value exactly when the map contains it. -/
theorem isSome_get? (m : Keyed β) (key : String) : (get? m key).isSome = contains m key := by
  induction m with
  | nil => rfl
  | cons e m ih =>
    obtain ⟨k, v⟩ := e
    rw [get?, List.lookup_cons, contains, List.any_cons, Bool.beq_comm (a := k)]
    cases key == k with
    | true => rfl
    | false => exact ih

/-- A key without a value is none of the keys. -/
theorem get?_eq_none_iff {m : Keyed β} {key : String} : get? m key = none ↔ key ∉ keys m := by
  rw [← contains_iff, ← isSome_get?, Bool.not_eq_true, Option.isSome_eq_false_iff,
    Option.isNone_iff_eq_none]

/-- The keys of a map are the keys with a value. -/
theorem mem_keys_iff {m : Keyed β} {key : String} :
    key ∈ keys m ↔ ∃ value, get? m key = some value := by
  rw [← contains_iff, ← isSome_get?, Option.isSome_iff_exists]

/-- The value of a key stands with it in an entry. -/
theorem mem_of_get? {m : Keyed β} {key : String} {value : β} (h : get? m key = some value) :
    (key, value) ∈ m := by
  obtain ⟨before, after, rfl, -⟩ := List.lookup_eq_some_iff.mp h
  exact List.mem_append_right before (List.mem_cons_self ..)

/-- If the keys are distinct, the value of an entry is the value of its key. -/
theorem get?_of_mem {m : Keyed β} (hkeys : (keys m).Nodup) {e : String × β} (he : e ∈ m) :
    get? m e.1 = some e.2 := by
  induction m with
  | nil => exact absurd he List.not_mem_nil
  | cons first m ih =>
    obtain ⟨k, v⟩ := first
    rw [keys_cons, List.nodup_cons] at hkeys
    rw [get?, List.lookup_cons]
    rcases List.mem_cons.mp he with rfl | he
    · simp
    · have hmem : e.1 ∈ keys m := List.mem_map_of_mem he
      have hne : (e.1 == k) = false := by
        simpa using fun h : e.1 = k => hkeys.1 (h ▸ hmem)
      rw [hne]
      exact ih hkeys.2 he

/-- Some entries of a map still have distinct keys. -/
theorem nodup_keys_filter {m : Keyed β} (h : (keys m).Nodup) (p : String × β → Bool) :
    (keys (m.filter p)).Nodup :=
  h.sublist (List.filter_sublist.map _)

/-- A key has its value among some entries of a map, if these include all entries with the key. -/
theorem get?_filter {m : Keyed β} {p : String × β → Bool} {key : String}
    (h : ∀ value, p (key, value) = true) : get? (m.filter p) key = get? m key := by
  induction m with
  | nil => rfl
  | cons e m ih =>
    obtain ⟨k, v⟩ := e
    rw [get?] at ih ⊢
    by_cases hk : key = k
    · subst hk
      rw [List.filter_cons_of_pos (h v), get?, List.lookup_cons_self, List.lookup_cons_self]
    · have hne : (key == k) = false := by simpa using hk
      rw [List.filter_cons, get?, List.lookup_cons, hne]
      split
      · rw [List.lookup_cons, hne]
        exact ih
      · exact ih

/-- The order of the entries does not count, if their keys are distinct. -/
theorem get?_perm {m n : Keyed β} (h : m.Perm n) (hkeys : (keys m).Nodup) (key : String) :
    get? n key = get? m key := by
  induction h with
  | nil => rfl
  | cons e _ ih =>
    obtain ⟨k, v⟩ := e
    have htail := ih (List.nodup_cons.mp hkeys).2
    rw [get?] at htail ⊢
    rw [get?, List.lookup_cons, List.lookup_cons, htail, get?]
  | swap e e' m =>
    obtain ⟨k, v⟩ := e
    obtain ⟨k', v'⟩ := e'
    have hne : k' ≠ k := by
      intro heq
      exact (List.nodup_cons.mp hkeys).1 (heq ▸ List.mem_cons_self ..)
    simp only [get?, List.lookup_cons]
    by_cases hk : key = k
    · have hk' : (key == k') = false := by simpa [hk] using hne.symm
      rw [hk']
    · have hk' : (key == k) = false := by simpa using hk
      rw [hk']
  | @trans m m' _ h _ ih ih' =>
    have hkeys' : (keys m').Nodup := (h.map Prod.fst).nodup_iff.mp hkeys
    rw [ih' hkeys', ih hkeys]

/-- Maps with the same distinct keys in the same order are equal if all their values are. -/
theorem eq_of_get? {m n : Keyed β} (hkeys : keys m = keys n) (hdistinct : (keys m).Nodup)
    (h : ∀ key, get? m key = get? n key) : m = n := by
  induction m generalizing n with
  | nil => exact (List.map_eq_nil_iff.mp hkeys.symm).symm
  | cons e m ih =>
    cases n with
    | nil => exact nomatch hkeys
    | cons e' n =>
      obtain ⟨k, v⟩ := e
      obtain ⟨k', v'⟩ := e'
      simp only [keys_cons, List.cons.injEq] at hkeys
      obtain ⟨rfl, hkeys⟩ := hkeys
      rw [keys_cons, List.nodup_cons] at hdistinct
      have hvalue : v = v' := by simpa [get?] using h k
      have hrest (key : String) : get? m key = get? n key := by
        by_cases hk : key = k
        · subst hk
          rw [get?_eq_none_iff.mpr hdistinct.1, get?_eq_none_iff.mpr (hkeys ▸ hdistinct.1)]
        · have hne : (key == k) = false := by simpa using hk
          simpa only [get?, List.lookup_cons, hne] using h key
      rw [hvalue, ih hkeys hdistinct.2 hrest]

/-! ### Putting -/

/-- A value that is put is the value of its key alone. -/
theorem get?_put (m : Keyed β) (key : String) (value : β) (key' : String) :
    get? (put m key value) key' = if key' = key then some value else get? m key' := by
  by_cases hkey : key' = key
  · rw [hkey, if_pos rfl, get?_put_self]
  · rw [if_neg hkey]
    induction m with
    | nil => simp [put, get?, hkey]
    | cons e m ih =>
      obtain ⟨k, v⟩ := e
      rw [put]
      split
      · rename_i hk
        have hne : (key' == key) = false := by simpa using hkey
        have hne' : (key' == k) = false := by rw [show k = key from hk]; exact hne
        rw [get?, get?, List.lookup_cons, List.lookup_cons, hne, hne']
      · rw [get?, get?, List.lookup_cons, List.lookup_cons]
        cases key' == k with
        | true => rfl
        | false => exact ih

/-- Putting the value that a key has changes nothing. -/
theorem put_get? {m : Keyed β} {key : String} {value : β} (h : get? m key = some value) :
    put m key value = m := by
  induction m with
  | nil => exact nomatch h
  | cons e m ih =>
    obtain ⟨k, v⟩ := e
    rw [put]
    rw [get?, List.lookup_cons] at h
    by_cases hk : k = key
    · subst hk
      obtain rfl : v = value := by simpa using h
      rw [if_pos rfl]
    · have hne : (key == k) = false := by simpa using Ne.symm hk
      rw [hne] at h
      rw [if_neg hk, ih h]

/-- A key that is put keeps its place, or comes last if it is new. -/
theorem keys_put (m : Keyed β) (key : String) (value : β) :
    keys (put m key value) = if key ∈ keys m then keys m else keys m ++ [key] := by
  induction m with
  | nil => rfl
  | cons e m ih =>
    rw [put]
    by_cases hk : e.1 = key
    · simp [hk]
    · rw [if_neg hk, keys_cons, ih]
      by_cases hmem : key ∈ keys m <;> simp [hmem, Ne.symm hk]

/-- A map into which a value was put has an entry. -/
theorem put_ne_nil (m : Keyed β) (key : String) (value : β) : put m key value ≠ [] := by
  cases m with
  | nil => exact List.cons_ne_nil _ _
  | cons e m =>
    rw [put]
    split <;> exact List.cons_ne_nil _ _

/-- Keys that are distinct stay so when a value is put. -/
theorem nodup_keys_put {m : Keyed β} (h : (keys m).Nodup) (key : String) (value : β) :
    (keys (put m key value)).Nodup := by
  rw [keys_put]
  split
  · exact h
  · rename_i hnew
    refine List.nodup_append.mpr ⟨h, List.nodup_singleton key, ?_⟩
    intro k hk k' hk' heq
    rw [List.mem_singleton.mp hk'] at heq
    exact hnew (heq ▸ hk)

/-- An entry of a map into which a value was put is the new one or one of the map. -/
theorem eq_or_mem_of_mem_put {m : Keyed β} {key : String} {value : β} {e : String × β}
    (h : e ∈ put m key value) : e = (key, value) ∨ e ∈ m := by
  induction m with
  | nil => exact .inl (List.mem_singleton.mp h)
  | cons first m ih =>
    rw [put] at h
    split at h
    · exact (List.mem_cons.mp h).imp_right (List.mem_cons_of_mem _)
    · rcases List.mem_cons.mp h with rfl | h
      · exact .inr (List.mem_cons_self ..)
      · exact (ih h).imp_right (List.mem_cons_of_mem _)

/-- An entry of a map into which entries were put is one of these or one of the map. -/
theorem mem_or_mem_of_mem_putAll {m entries : Keyed β} {e : String × β}
    (h : e ∈ putAll m entries) : e ∈ m ∨ e ∈ entries := by
  induction entries generalizing m with
  | nil => exact .inl h
  | cons first entries ih =>
    rcases ih (m := put m first.1 first.2) h with h | h
    · rcases eq_or_mem_of_mem_put h with rfl | h
      · exact .inr (List.mem_cons_self ..)
      · exact .inl h
    · exact .inr (List.mem_cons_of_mem _ h)

/-- Keys that are distinct stay so when entries are put. -/
theorem nodup_keys_putAll {m : Keyed β} (h : (keys m).Nodup) (entries : Keyed β) :
    (keys (putAll m entries)).Nodup := by
  induction entries generalizing m with
  | nil => exact h
  | cons e entries ih => exact ih (nodup_keys_put h e.1 e.2)

/-- The keys of a map that was made of a list of entries are distinct. -/
theorem nodup_keys_ofList (entries : List (String × β)) : (keys (ofList entries)).Nodup :=
  nodup_keys_putAll (m := []) List.nodup_nil entries

/-- Keys that are distinct stay so when entries with new keys are put. -/
theorem nodup_keys_putNew {m : Keyed β} (h : (keys m).Nodup) (entries : Keyed β) :
    (keys (putNew m entries)).Nodup := by
  induction entries generalizing m with
  | nil => exact h
  | cons e entries ih =>
    refine ih (m := if contains m e.1 then m else put m e.1 e.2) ?_
    split
    · exact h
    · exact nodup_keys_put h e.1 e.2

/-- The value of a key that is not among those that are put stays. -/
theorem get?_putAll_of_notMem {m entries : Keyed β} {key : String} (h : key ∉ keys entries) :
    get? (putAll m entries) key = get? m key := by
  induction entries generalizing m with
  | nil => rfl
  | cons e entries ih =>
    rw [keys_cons, List.mem_cons, not_or] at h
    change get? (putAll (put m e.1 e.2) entries) key = get? m key
    rw [ih h.2, get?_put, if_neg h.1]

/-- What a key has after entries were put depends on what it had before. -/
theorem get?_putAll_congr {m n : Keyed β} {key : String} (h : get? m key = get? n key)
    (entries : Keyed β) : get? (putAll m entries) key = get? (putAll n entries) key := by
  induction entries generalizing m n with
  | nil => exact h
  | cons e entries ih =>
    apply ih (m := put m e.1 e.2) (n := put n e.1 e.2)
    rw [get?_put, get?_put, h]

/-- Entries with different keys can be put in either order. -/
theorem get?_putAll_swap (m : Keyed β) {as bs : Keyed β} (h : ∀ key ∈ keys as, key ∉ keys bs)
    (key : String) : get? (putAll (putAll m as) bs) key = get? (putAll (putAll m bs) as) key := by
  by_cases hkey : key ∈ keys as
  · rw [get?_putAll_of_notMem (h key hkey)]
    exact get?_putAll_congr (get?_putAll_of_notMem (h key hkey)).symm as
  · rw [get?_putAll_of_notMem hkey]
    exact get?_putAll_congr (get?_putAll_of_notMem hkey) bs

/-- One more entry at the end of a list is put last. -/
theorem ofList_concat (entries : List (String × β)) (e : String × β) :
    ofList (entries ++ [e]) = put (ofList entries) e.1 e.2 := by
  simp [ofList, putAll]

/-- The last entry of a key in a list counts. -/
theorem get?_ofList (entries : List (String × β)) (key : String) :
    get? (ofList entries) key = entries.reverse.lookup key := by
  induction entries using List.reverseRecOn with
  | nil => rfl
  | append_singleton entries e ih =>
    obtain ⟨k, v⟩ := e
    rw [ofList_concat, get?_put, List.reverse_append, List.reverse_singleton,
      List.singleton_append, List.lookup_cons, ih]
    by_cases hkey : key = k
    · simp [hkey]
    · have hne : (key == k) = false := by simpa using hkey
      rw [if_neg hkey, hne]

/-- The first entry of a key in a list has its place. -/
theorem keys_ofList (entries : List (String × β)) :
    keys (ofList entries) = (entries.map (·.1)).eraseDups := by
  induction entries using List.reverseRecOn with
  | nil => rfl
  | append_singleton entries e ih =>
    rw [ofList_concat, keys_put, ih, List.map_append, List.eraseDups_append]
    by_cases hmem : e.1 ∈ entries.map (·.1)
    · rw [if_pos (List.mem_eraseDups.mpr hmem)]
      simp [List.removeAll, hmem]
    · rw [if_neg fun h => hmem (List.mem_eraseDups.mp h)]
      simp [List.removeAll, hmem, List.eraseDups_cons]

/-! ### Putting entries that were put together -/

/-- Of two values that are put for one key the second counts. -/
theorem put_put_self (m : Keyed β) (key : String) (value value' : β) :
    put (put m key value) key value' = put m key value' := by
  induction m with
  | nil => simp [put]
  | cons e m ih =>
    by_cases hkey : e.1 = key
    · simp [put, hkey]
    · simp [put, hkey, ih]

/-- A key that has its place can be put before another one as well as after it. -/
theorem put_put_of_mem {m : Keyed β} {key key' : String} (hmem : key ∈ keys m) (hne : key' ≠ key)
    (value value' : β) : put (put m key' value') key value = put (put m key value) key' value' := by
  induction m with
  | nil => exact absurd hmem List.not_mem_nil
  | cons e m ih =>
    by_cases hkey : e.1 = key
    · have hother : e.1 ≠ key' := fun h => hne (h.symm.trans hkey)
      simp [put, hkey, hne.symm]
    · have hrest : key ∈ keys m := (List.mem_cons.mp hmem).resolve_left (Ne.symm hkey)
      by_cases hkey' : e.1 = key'
      · simp [put, hkey', hne]
      · simp [put, hkey, hkey', ih hrest]

/-- A key that has its place can be put before entries with other keys as well as after them. -/
theorem put_putAll {m entries : Keyed β} {key : String} (hmem : key ∈ keys m)
    (hnew : key ∉ keys entries) (value : β) :
    put (putAll m entries) key value = putAll (put m key value) entries := by
  induction entries generalizing m with
  | nil => rfl
  | cons e entries ih =>
    rw [keys_cons, List.mem_cons, not_or] at hnew
    have hmem' : key ∈ keys (put m e.1 e.2) := by
      rw [keys_put]
      split
      · exact hmem
      · exact List.mem_append_left _ hmem
    change put (putAll (put m e.1 e.2) entries) key value =
      putAll (put (put m key value) e.1 e.2) entries
    rw [ih hmem' hnew.2, put_put_of_mem hmem (Ne.symm hnew.1)]

/-- Putting entries into which a value was put is putting them and then the value. -/
theorem putAll_put (m : Keyed β) {entries : Keyed β} (hdistinct : (keys entries).Nodup)
    (key : String) (value : β) :
    putAll m (put entries key value) = put (putAll m entries) key value := by
  induction entries generalizing m with
  | nil => rfl
  | cons e entries ih =>
    rw [keys_cons, List.nodup_cons] at hdistinct
    by_cases hkey : e.1 = key
    · subst hkey
      have hmem : e.1 ∈ keys (put m e.1 e.2) := by
        rw [keys_put]
        split
        · assumption
        · simp
      have hput : put (e :: entries) e.1 value = (e.1, value) :: entries := by simp [put]
      rw [hput]
      change putAll (put m e.1 value) entries = put (putAll (put m e.1 e.2) entries) e.1 value
      rw [put_putAll hmem hdistinct.1, put_put_self]
    · have hput : put (e :: entries) key value = e :: put entries key value := by simp [put, hkey]
      rw [hput]
      exact ih (put m e.1 e.2) hdistinct.2

/-- Putting entries into which others were put is putting the ones and then the others. -/
theorem putAll_putAll (m : Keyed β) {entries : Keyed β} (hdistinct : (keys entries).Nodup)
    (others : Keyed β) : putAll m (putAll entries others) = putAll (putAll m entries) others := by
  induction others generalizing entries with
  | nil => rfl
  | cons e others ih =>
    change putAll m (putAll (put entries e.1 e.2) others) =
      putAll (put (putAll m entries) e.1 e.2) others
    rw [ih (nodup_keys_put hdistinct e.1 e.2), putAll_put m hdistinct]

/-- A key has the value of the entries that are put, or else its old one. -/
theorem get?_putAll (m : Keyed β) {entries : Keyed β} (hdistinct : (keys entries).Nodup)
    (key : String) : get? (putAll m entries) key = (get? entries key).or (get? m key) := by
  induction entries generalizing m with
  | nil => rfl
  | cons e entries ih =>
    rw [keys_cons, List.nodup_cons] at hdistinct
    change get? (putAll (put m e.1 e.2) entries) key = (List.lookup key (e :: entries)).or _
    rw [ih _ hdistinct.2, get?_put, List.lookup_cons]
    by_cases hkey : key = e.1
    · subst hkey
      rw [get?_eq_none_iff.mpr hdistinct.1]
      simp
    · have hne : (key == e.1) = false := by simpa using hkey
      rw [if_neg hkey, hne]
      rfl

/-- The keys of entries that are put stand behind those of the map, but for the ones that it has. -/
theorem keys_putAll (m : Keyed β) {entries : Keyed β} (hdistinct : (keys entries).Nodup) :
    keys (putAll m entries) = keys m ++ (keys entries).filter (· ∉ keys m) := by
  induction entries generalizing m with
  | nil => simp [putAll_nil]
  | cons e entries ih =>
    rw [keys_cons, List.nodup_cons] at hdistinct
    change keys (putAll (put m e.1 e.2) entries) = _
    rw [ih _ hdistinct.2, keys_put, keys_cons]
    by_cases hmem : e.1 ∈ keys m
    · simp [hmem]
    · have hrest : (keys entries).filter (· ∉ keys m ++ [e.1]) =
          (keys entries).filter (· ∉ keys m) := by
        refine List.filter_congr fun key hkey => ?_
        have hne : key ≠ e.1 := fun h => hdistinct.1 (h ▸ hkey)
        simp [hne]
      rw [if_neg hmem, hrest, List.append_assoc]
      simp [hmem]

/-! ### Appending -/

/-- A new key is put at the end. -/
theorem put_eq_append {m : Keyed β} {key : String} (h : key ∉ keys m) (value : β) :
    put m key value = m ++ [(key, value)] := by
  induction m with
  | nil => rfl
  | cons e m ih =>
    rw [keys_cons, List.mem_cons, not_or] at h
    rw [put, if_neg (Ne.symm h.1), ih h.2, List.cons_append]

/-- New keys stay new when an entry with another key is appended. -/
theorem notMem_keys_concat {m entries : Keyed β} {e : String × β} (he : e.1 ∉ keys entries)
    (hnew : ∀ e' ∈ entries, e'.1 ∉ keys m) : ∀ e' ∈ entries, e'.1 ∉ keys (m ++ [e]) := by
  intro e' he' hmem
  rw [keys_append, List.mem_append, keys_cons, keys_nil, List.mem_singleton] at hmem
  rcases hmem with hmem | hkey
  · exact hnew e' he' hmem
  · exact he (hkey ▸ List.mem_map_of_mem he')

/-- Entries with new and distinct keys are put at the end. -/
theorem putAll_eq_append {m entries : Keyed β} (hdistinct : (keys entries).Nodup)
    (hnew : ∀ e ∈ entries, e.1 ∉ keys m) : putAll m entries = m ++ entries := by
  induction entries generalizing m with
  | nil => rw [putAll_nil, List.append_nil]
  | cons e entries ih =>
    rw [keys_cons, List.nodup_cons] at hdistinct
    rw [List.forall_mem_cons] at hnew
    have hnew' := notMem_keys_concat hdistinct.1 hnew.2
    change putAll (put m e.1 e.2) entries = m ++ e :: entries
    rw [put_eq_append hnew.1, ih hdistinct.2 hnew', List.append_assoc, List.singleton_append]

/-- Entries with new and distinct keys are all new to the map. -/
theorem putNew_eq_append {m entries : Keyed β} (hdistinct : (keys entries).Nodup)
    (hnew : ∀ e ∈ entries, e.1 ∉ keys m) : putNew m entries = m ++ entries := by
  induction entries generalizing m with
  | nil => rw [List.append_nil]; rfl
  | cons e entries ih =>
    rw [keys_cons, List.nodup_cons] at hdistinct
    rw [List.forall_mem_cons] at hnew
    have hnew' := notMem_keys_concat hdistinct.1 hnew.2
    have hfirst : (if contains m e.1 then m else put m e.1 e.2) = m ++ [e] := by
      rw [if_neg (fun h => hnew.1 (contains_iff.mp h)), put_eq_append hnew.1]
    change putNew (if contains m e.1 then m else put m e.1 e.2) entries = m ++ e :: entries
    rw [hfirst, ih hdistinct.2 hnew', List.append_assoc, List.singleton_append]

end DiagramScene.Keyed
