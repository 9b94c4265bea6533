import Mathlib
import DiagramScene.Cli.Args
import DiagramScene.Proofs.Json.Depth

/-!
# What options ask of an image

The options about an image put members into the request for it.  Whatever the words of a command
line are, these members are `IsFlag`s: plain values, none of which stands for the elements
(`asksFlags_of_ofWords?`).
-/

namespace DiagramScene.Cli

/-- A plain value that does not stand for the elements of a scene. -/
structure IsFlag (m : String × Json) : Prop where
  key_ne : m.1 ≠ "elements"
  wellFormed : m.2.WellFormed
  depth_eq : m.2.depth = 0

/-- What an option puts into a request are flags. -/
def Setting.PutsFlags (s : Setting) : Prop :=
  ∀ members, s = .output members → ∀ m ∈ members, IsFlag m

/-- A setting with one member, if that is a flag. -/
theorem putsFlags_singleton {m : String × Json} (h : IsFlag m) : (Setting.output [m]).PutsFlags := by
  rintro _ ⟨⟩ m' hm'
  exact List.mem_singleton.mp hm' ▸ h

/-- The options without a value put flags into a request. -/
theorem putsFlags_of_mem_flags : ∀ e ∈ flags, e.2.PutsFlags := by
  have hdark : IsFlag ("darkMode", .bool true) := ⟨by decide, .bool true, rfl⟩
  simp only [flags, List.forall_mem_cons]
  exact ⟨nofun, nofun, putsFlags_singleton hdark, nofun⟩

/-- A number as the value of an option is a flag. -/
theorem putsFlags_numberSetting? {key word : String} (hkey : key ≠ "elements") {s : Setting}
    (h : numberSetting? key word = some s) : s.PutsFlags := by
  obtain ⟨x, hx, rfl⟩ := Option.map_eq_some_iff.mp h
  exact putsFlags_singleton ⟨hkey, .num (Option.filter_eq_some_iff.mp hx).2, rfl⟩

/-- A background as the value of an option is a flag, if it says something. -/
theorem putsFlags_backgroundSetting (word : String) : (backgroundSetting word).PutsFlags := by
  unfold backgroundSetting
  dsimp only
  split
  · rintro _ ⟨⟩
    exact nofun
  · exact putsFlags_singleton ⟨by simp, .str _, rfl⟩

/-- The options with a value put flags into a request. -/
theorem putsFlags_of_mem_valuedOptions :
    ∀ e ∈ valuedOptions, ∀ word s, e.2 word = some s → s.PutsFlags := by
  have hnumber {key : String} (hkey : key ≠ "elements") (word : String) (s : Setting)
      (h : numberSetting? key word = some s) : s.PutsFlags := putsFlags_numberSetting? hkey h
  have hother {f : String → Setting} (hf : ∀ word members, f word ≠ .output members)
      (word : String) (s : Setting) (h : some (f word) = some s) : s.PutsFlags := by
    cases h
    exact fun members hmembers => absurd hmembers (hf word members)
  simp only [valuedOptions, List.forall_mem_cons]
  refine ⟨?_, hnumber (by decide), hnumber (by decide), hnumber (by decide), hnumber (by decide),
    ?_, hother nofun, hother nofun, hother nofun, nofun⟩
  · intro word s h
    obtain ⟨format, -, rfl⟩ := Option.map_eq_some_iff.mp h
    exact nofun
  · rintro word _ ⟨⟩
    exact putsFlags_backgroundSetting word

/-- A setting in front of other words. -/
theorem putsFlags_cons {s : Setting} (hs : s.PutsFlags) {read : List Word}
    (hread : ∀ s, Word.setting s ∈ read → s.PutsFlags) :
    ∀ s', Word.setting s' ∈ .setting s :: read → s'.PutsFlags := by
  intro s' hs'
  rcases List.mem_cons.mp hs' with heq | hmem
  · cases heq
    exact hs
  · exact hread s' hmem

/-- The options among words put flags into a request. -/
theorem putsFlags_of_readWords {words : List String} {read : List Word}
    (h : readWords words = some read) : ∀ s, Word.setting s ∈ read → s.PutsFlags := by
  fun_induction readWords words generalizing read with
  | case1 | case2 =>
    cases h
    exact fun _ => nofun
  | case3 text =>
    cases h
    exact fun _ hs => nomatch List.mem_singleton.mp hs
  | case4 | case6 | case8 => exact nomatch h
  | case5 word rest _ _ _ s hflag ih =>
    obtain ⟨read, hread, rfl⟩ := Option.map_eq_some_iff.mp h
    exact putsFlags_cons (putsFlags_of_mem_flags _ (Keyed.mem_of_get? hflag)) (ih hread)
  | case7 word _ _ option value rest hoption _ _ ih =>
    obtain ⟨s, hs, h⟩ := Option.bind_eq_some_iff.mp h
    obtain ⟨read, hread, h⟩ := Option.bind_eq_some_iff.mp h
    cases h
    have hflags := putsFlags_of_mem_valuedOptions _ (Keyed.mem_of_get? hoption) value s hs
    exact putsFlags_cons hflags (ih hread)
  | case9 word _ _ rest _ _ _ _ ih =>
    obtain ⟨read, hread, rfl⟩ := Option.map_eq_some_iff.mp h
    intro s hs
    rcases List.mem_cons.mp hs with heq | hmem
    · exact nomatch heq
    · exact ih hread s hmem

/-! ### The command line -/

/-- What options ask of an image are flags. -/
def Options.AsksFlags (options : Options) : Prop := ∀ m ∈ options.output, IsFlag m

/-- One more setting leaves it so. -/
theorem asksFlags_set {options : Options} (h : options.AsksFlags) {s : Setting}
    (hs : s.PutsFlags) : (options.set s).AsksFlags := by
  cases s with
  | output members =>
    intro m hm
    rcases Keyed.mem_or_mem_of_mem_putAll hm with hm | hm
    · exact h m hm
    · exact hs members rfl m hm
  | format | layout | config | emitsScene | pretty | out => exact h

/-- One more word leaves it so. -/
theorem asksFlags_place {d d' : Draft} {word : Word} (hd : d.options.AsksFlags)
    (hword : ∀ s, word = .setting s → s.PutsFlags) (h : d.place word = some d') :
    d'.options.AsksFlags := by
  have hinput {text : String} (h : d.setInput? text = some d') : d'.options.AsksFlags := by
    unfold Draft.setInput? at h
    split at h
    · exact nomatch h
    · cases h
      exact hd
  cases word with
  | setting s =>
    cases h
    exact asksFlags_set hd (hword s rfl)
  | input text => exact hinput h
  | bare text =>
    unfold Draft.place at h
    dsimp only at h
    split at h
    · cases h
      exact hd
    · exact hinput h

/-- All words together leave it so. -/
theorem asksFlags_foldlM {words : List Word} (hwords : ∀ s, Word.setting s ∈ words → s.PutsFlags)
    {d d' : Draft} (hd : d.options.AsksFlags) (h : words.foldlM Draft.place d = some d') :
    d'.options.AsksFlags := by
  induction words generalizing d with
  | nil =>
    cases h
    exact hd
  | cons word words ih =>
    rw [List.foldlM_cons] at h
    obtain ⟨next, hnext, h⟩ := Option.bind_eq_some_iff.mp h
    refine ih (fun s hs => hwords s (List.mem_cons_of_mem _ hs)) ?_ h
    exact asksFlags_place hd (fun s hs => hwords s (hs ▸ List.mem_cons_self ..)) hnext

/-- What the options of a command line ask of an image are flags. -/
theorem asksFlags_of_ofWords? {words : List String} {args : Args}
    (h : Args.ofWords? words = some args) : args.options.AsksFlags := by
  obtain ⟨read, hread, h⟩ := Option.bind_eq_some_iff.mp h
  obtain ⟨draft, hdraft, h⟩ := Option.bind_eq_some_iff.mp h
  obtain ⟨command, -, h⟩ := Option.bind_eq_some_iff.mp h
  have hflags : draft.options.AsksFlags :=
    asksFlags_foldlM (putsFlags_of_readWords hread) (d := .empty) nofun hdraft
  split at h
  · cases h
    exact hflags
  · exact nomatch h

end DiagramScene.Cli
