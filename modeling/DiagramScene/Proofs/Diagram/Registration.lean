import Mathlib
import DiagramScene.Proofs.Diagram.Preamble

/-!
# The order in which detectors are registered

The first detector whose header a text begins with names the type of the text, so in general the
order of the detectors counts.  It does not in an `Unambiguous` registry, where no text begins with
the headers of two detectors: at most one of them matches (`Unambiguous.length_filter_le_one`), and
the type is that of any detector that does (`Unambiguous.typeOfClean?_eq_some_iff`).

Headers exclude each other if none of their words begins with a word of the other.  This holds for
the known types (`unambiguous_builtin`), and `detect_builtin_perm` puts together what follows.
-/

namespace DiagramScene.Diagram

/-! ### Headers -/

namespace Header

/-- The words of a header. -/
def words : Header → List String
  | .afterBlanks words => words
  | .atStart word => [word]

/-- A text begins with one of the words behind its blanks. -/
theorem isAtStartOf_iff {header : Header} (h : header.MayFollowBlanks) {cs : List Char} :
    header.isAtStartOf cs = true ↔
      ∃ word ∈ header.words, word.toList <+: Text.dropBlankStart cs := by
  cases header with
  | afterBlanks words =>
    simp only [isAtStartOf, List.any_eq_true, List.isPrefixOf_iff_prefix, Header.words]
  | atStart word => exact h.elim

/-- No text begins with both headers. -/
def Excludes (header header' : Header) : Prop :=
  ∀ cs, header.isAtStartOf cs = true → header'.isAtStartOf cs = false

/-- Of two headers, each excludes the other or neither does. -/
theorem Excludes.symm {header header' : Header} (h : header.Excludes header') :
    header'.Excludes header := by
  intro cs hcs
  refine Bool.eq_false_iff.mpr fun hheader => ?_
  rw [h cs hheader] at hcs
  exact Bool.false_ne_true hcs

/-- Neither of two words begins with the other one. -/
def Apart (word word' : String) : Prop :=
  ¬ word.toList <+: word'.toList ∧ ¬ word'.toList <+: word.toList

instance (word word' : String) : Decidable (Apart word word') :=
  inferInstanceAs (Decidable (_ ∧ _))

/-- Headers exclude each other if their words do not begin with one another. -/
theorem excludes_of_apart {header header' : Header} (h : header.MayFollowBlanks)
    (h' : header'.MayFollowBlanks)
    (hapart : ∀ word ∈ header.words, ∀ word' ∈ header'.words, Apart word word') :
    header.Excludes header' := by
  intro cs hcs
  refine Bool.eq_false_iff.mpr fun hcs' => ?_
  obtain ⟨word, hword, hbegins⟩ := (isAtStartOf_iff h).mp hcs
  obtain ⟨word', hword', hbegins'⟩ := (isAtStartOf_iff h').mp hcs'
  -- Of two beginnings of a text, the shorter one begins the longer one.
  rcases List.prefix_or_prefix_of_prefix hbegins hbegins' with hprefix | hprefix
  · exact (hapart word hword word' hword').1 hprefix
  · exact (hapart word hword word' hword').2 hprefix

end Header

/-! ### Registries -/

namespace Registry

/-- No text begins with the headers of two detectors of the registry. -/
def Unambiguous (registry : Registry) : Prop :=
  registry.Pairwise fun d d' => d.header.Excludes d'.header

/-- The words that name a type. -/
def keywords (registry : Registry) (id : String) : List String :=
  (registry.filter fun d => d.id = id).flatMap (·.header.words)

section Unambiguous

variable {registry registry' : Registry} {cs : List Char}

instance : Std.Symm fun d d' : Detector => d.header.Excludes d'.header := ⟨fun _ _ h => h.symm⟩

/-- Registries with the same detectors are both unambiguous, or neither is. -/
theorem Unambiguous.perm (h : registry.Unambiguous) (hperm : registry.Perm registry') :
    registry'.Unambiguous :=
  (hperm.pairwise_iff fun hd => hd.symm).mp h

/-- At most one detector matches a text. -/
theorem Unambiguous.length_filter_le_one (h : registry.Unambiguous) (cs : List Char) :
    (registry.filter (·.header.isAtStartOf cs)).length ≤ 1 := by
  have hpairs := h.sublist (List.filter_sublist (p := fun d => d.header.isAtStartOf cs))
  have hmatch : ∀ d ∈ registry.filter (·.header.isAtStartOf cs), d.header.isAtStartOf cs = true :=
    fun d hd => (List.mem_filter.mp hd).2
  generalize registry.filter (·.header.isAtStartOf cs) = found at hpairs hmatch
  match found with
  | [] => exact Nat.zero_le 1
  | [d] => exact le_rfl
  | d :: d' :: rest =>
    have hexcludes : d.header.Excludes d'.header := List.rel_of_pairwise_cons hpairs (by simp)
    have hfirst : d.header.isAtStartOf cs = true := hmatch d (by simp)
    have hsecond : d'.header.isAtStartOf cs = true := hmatch d' (by simp)
    rw [hexcludes cs hfirst] at hsecond
    exact absurd hsecond Bool.false_ne_true

/-- Two detectors that match a text are the same. -/
theorem Unambiguous.eq_of_isAtStartOf (h : registry.Unambiguous) {d d' : Detector}
    (hd : d ∈ registry) (hd' : d' ∈ registry) (hcs : d.header.isAtStartOf cs = true)
    (hcs' : d'.header.isAtStartOf cs = true) : d = d' := by
  by_contra hne
  have hexcludes : d.header.Excludes d'.header := h.forall hd hd' hne
  rw [hexcludes cs hcs] at hcs'
  exact Bool.false_ne_true hcs'

/-- The detector that is found matches the text. -/
theorem isAtStartOf_of_find? {d : Detector}
    (h : registry.find? (·.header.isAtStartOf cs) = some d) : d.header.isAtStartOf cs = true :=
  List.find?_some (p := fun d : Detector => d.header.isAtStartOf cs) h

/-- The type of a text is that of any detector that matches it. -/
theorem Unambiguous.typeOfClean?_eq_some_iff (h : registry.Unambiguous) {id : String} :
    registry.typeOfClean? cs = some id ↔
      ∃ d ∈ registry, d.id = id ∧ d.header.isAtStartOf cs = true := by
  rw [typeOfClean?, Option.map_eq_some_iff]
  constructor
  · rintro ⟨d, hfound, hid⟩
    exact ⟨d, List.mem_of_find?_eq_some hfound, hid, isAtStartOf_of_find? hfound⟩
  · rintro ⟨d, hd, hid, hmatch⟩
    have hsome : (registry.find? (·.header.isAtStartOf cs)).isSome :=
      List.find?_isSome.mpr ⟨d, hd, hmatch⟩
    obtain ⟨d', hfound⟩ := Option.isSome_iff_exists.mp hsome
    have hsame : d = d' := h.eq_of_isAtStartOf hd (List.mem_of_find?_eq_some hfound) hmatch
      (isAtStartOf_of_find? hfound)
    exact ⟨d', hfound, hsame ▸ hid⟩

/-- The order of the detectors makes no difference to the type of a text. -/
theorem Unambiguous.typeOfClean?_perm (h : registry.Unambiguous) (hperm : registry.Perm registry') :
    registry.typeOfClean? cs = registry'.typeOfClean? cs := by
  refine Option.ext fun id => ?_
  rw [h.typeOfClean?_eq_some_iff, (h.perm hperm).typeOfClean?_eq_some_iff]
  simp only [hperm.mem_iff]

end Unambiguous

/-- Where all headers may follow blanks, a detector of a type matches a text exactly if the text
begins with a word that names the type. -/
theorem exists_isAtStartOf_iff {registry : Registry}
    (h : ∀ d ∈ registry, d.header.MayFollowBlanks) {id : String} {cs : List Char} :
    (∃ d ∈ registry, d.id = id ∧ d.header.isAtStartOf cs = true) ↔
      ∃ word ∈ registry.keywords id, word.toList <+: Text.dropBlankStart cs := by
  simp only [keywords, List.mem_flatMap, List.mem_filter, decide_eq_true_eq]
  constructor
  · rintro ⟨d, hd, hid, hmatch⟩
    obtain ⟨word, hword, hbegins⟩ := (Header.isAtStartOf_iff (h d hd)).mp hmatch
    exact ⟨word, ⟨d, ⟨hd, hid⟩, hword⟩, hbegins⟩
  · rintro ⟨word, ⟨d, ⟨hd, hid⟩, hword⟩, hbegins⟩
    exact ⟨d, hd, hid, (Header.isAtStartOf_iff (h d hd)).mpr ⟨word, hword, hbegins⟩⟩

/-- None of the words of the known types begins with another one. -/
theorem apart_builtin : builtin.Pairwise fun d d' =>
    ∀ word ∈ d.header.words, ∀ word' ∈ d'.header.words, Header.Apart word word' := by
  decide

/-- No text begins with the headers of two known types. -/
theorem unambiguous_builtin : builtin.Unambiguous :=
  apart_builtin.imp_of_mem fun hd hd' hapart => Header.excludes_of_apart
    (mayFollowBlanks_of_mem_builtin _ hd) (mayFollowBlanks_of_mem_builtin _ hd') hapart

/-- In whatever order the known types are registered, at most one of them matches a text, the result
is the same, and it is a type exactly if the cleaned text begins with one of the words of that type
behind its blanks. -/
theorem detect_builtin_perm {registry : Registry} (h : registry.Perm builtin) (text : String) :
    (registry.filter (·.header.isAtStartOf (clean text.toList))).length ≤ 1 ∧
      registry.detect text = builtin.detect text ∧
      ∀ id, registry.detect text = .ok id ↔
        ∃ word ∈ builtin.keywords id, word.toList <+: Text.dropBlankStart (clean text.toList) := by
  have hregistry := unambiguous_builtin.perm h.symm
  have hdetect : registry.detect text = builtin.detect text := by
    rw [detect, detect, hregistry.typeOfClean?_perm h]
  refine ⟨hregistry.length_filter_le_one _, hdetect, fun id => ?_⟩
  rw [hdetect, detect_eq_ok_iff, unambiguous_builtin.typeOfClean?_eq_some_iff,
    exists_isAtStartOf_iff mayFollowBlanks_of_mem_builtin]

/-- The known types from the last one to the first. -/
def reversedBuiltin : Registry := builtin.reverse

/-- A text whose header comes behind a directive and a comment has the same type when the known
types are asked from the last one to the first. -/
theorem detect_reversedBuiltin :
    reversedBuiltin.Perm builtin ∧
      reversedBuiltin.detect "%%\x7binit\x7d%% %% gantt\n graphical" = .ok "flowchart" := by
  have hperm : reversedBuiltin.Perm builtin := List.reverse_perm builtin
  have hresult := detect_builtin_perm hperm "%%\x7binit\x7d%% %% gantt\n graphical"
  refine ⟨hperm, (hresult.2.2 _).mpr ⟨"graph", by decide, ?_⟩⟩
  have hclean : clean "%%\x7binit\x7d%% %% gantt\n graphical".toList =
      "\n graphical".toList := by cbv
  rw [hclean]
  decide

end Registry

end DiagramScene.Diagram
