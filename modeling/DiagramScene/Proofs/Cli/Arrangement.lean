import Mathlib
import DiagramScene.Proofs.Cli.Options
import DiagramScene.Proofs.Keyed
import DiagramScene.Proofs.Lanes

/-!
# The arrangement of a command line

Options may stand anywhere on a command line, among each other and between the bare words.  The
words of a command line are read as `arguments`, options with their values and bare words, which are
then taken one after the other.  The bare words run on one lane, and the options of each name on a
lane of their own.  Options of different names set different things, so they can be swapped, and an
option can be swapped with a bare word.

The main statement is `sameAs_ofWords?`: two command lines with the same bare words and, for each
option, the same values in the same order are wrong both, or they ask for the same.
-/

namespace DiagramScene

namespace Cli

/-! ### Arguments -/

/-- A word of a command line in its role. -/
inductive Argument where
  /-- An option under its name, with the word behind it if it takes one. -/
  | option (name : String) (value : Option String)
  /-- A command or the input. -/
  | bare (text : String)
  deriving DecidableEq, Repr

/-- The words of a command line in their roles.  A word that begins with a dash is an option, if
there is one of that name or not; only the word for the standard streams is not. -/
def arguments : List String → List Argument
  | [] => []
  | word :: rest =>
    match valuedOptions.lookup word, rest with
    | some _, [] => [.option word none]
    | some _, value :: rest => .option word (some value) :: arguments rest
    | none, rest =>
      (if isUnknownOption word then .option word none else .bare word) :: arguments rest

namespace Argument

/-- What a command line says by an argument.  Nothing is said by an option of an unknown name, or
with a value that it does not take. -/
def word? : Argument → Option Word
  | .option name none => (flags.lookup name).map .setting
  | .option name (some value) => ((valuedOptions.lookup name).bind (· value)).map .setting
  | .bare text => some (.bare text)

/-- The text of a bare word. -/
def bare? : Argument → Option String
  | .option _ _ => none
  | .bare text => some text

/-- The value of an option of a name. -/
def valueOf? (name : String) : Argument → Option (Option String)
  | .option name' value => if name' = name then some value else none
  | .bare _ => none

/-- The lane of an argument: the name of an option; all bare words share one. -/
def lane : Argument → Option String
  | .option name _ => some name
  | .bare _ => none

end Argument

/-- The bare words of a command line. -/
def bareWords (words : List String) : List String :=
  (arguments words).filterMap Argument.bare?

/-- The values of an option, wherever it occurs on a command line. -/
def valuesOf (name : String) (words : List String) : List (Option String) :=
  (arguments words).filterMap (Argument.valueOf? name)

/-- Two command lines have the same bare words, and of each option the same values in the same
order. -/
structure Rearranged (words words' : List String) : Prop where
  bareWords_eq : bareWords words = bareWords words'
  valuesOf_eq : ∀ name, valuesOf name words = valuesOf name words'

/-- The bare words of some arguments are the texts on their lane. -/
theorem filter_lane_none (as : List Argument) :
    as.filter (Argument.lane · = none) = (as.filterMap Argument.bare?).map .bare := by
  induction as with
  | nil => rfl
  | cons a as ih =>
    cases a with
    | option name value => exact ih
    | bare text => exact congrArg (Argument.bare text :: ·) ih

/-- The options of a name among some arguments have their values on the lane of the name. -/
theorem filter_lane_some (name : String) (as : List Argument) :
    as.filter (Argument.lane · = some name) =
      (as.filterMap (Argument.valueOf? name)).map (.option name) := by
  induction as with
  | nil => rfl
  | cons a as ih =>
    cases a with
    | bare text => exact ih
    | option name' value =>
      by_cases hname : name' = name
      · have hvalue : (Argument.option name' value).valueOf? name = some value := if_pos hname
        rw [List.filter_cons_of_pos (by simpa [Argument.lane] using hname), ih,
          List.filterMap_cons_some hvalue, List.map_cons, hname]
      · have hvalue : (Argument.option name' value).valueOf? name = none := if_neg hname
        rw [List.filter_cons_of_neg (by simpa [Argument.lane] using hname), ih,
          List.filterMap_cons_none hvalue]

/-- Command lines that are rearranged have the same lanes. -/
theorem Rearranged.sameLanes {words words' : List String} (h : Rearranged words words') :
    SameLanes Argument.lane (arguments words) (arguments words') := by
  intro lane
  cases lane with
  | none =>
    rw [filter_lane_none, filter_lane_none]
    exact congrArg (List.map Argument.bare) h.bareWords_eq
  | some name =>
    rw [filter_lane_some, filter_lane_some]
    exact congrArg (List.map (Argument.option name)) (h.valuesOf_eq name)

/-! ### Reading arguments -/

/-- The option without a value takes none, and looks like an option. -/
theorem isUnknownOption_of_mem_flags : ∀ e ∈ flags,
    valuedOptions.lookup e.1 = none ∧ isUnknownOption e.1 = true := by
  simp only [flags, List.forall_mem_cons]
  exact ⟨⟨rfl, rfl⟩, ⟨rfl, rfl⟩, ⟨rfl, rfl⟩, List.forall_mem_nil _⟩

/-- A word that asks for help says nothing else, and looks like an option. -/
theorem isUnknownOption_of_mem_helpWords : ∀ word ∈ helpWords,
    valuedOptions.lookup word = none ∧ flags.lookup word = none ∧ isUnknownOption word = true := by
  simp only [helpWords, List.forall_mem_cons]
  exact ⟨⟨rfl, rfl, rfl⟩, ⟨rfl, rfl, rfl⟩, List.forall_mem_nil _⟩

/-- What an argument in front of others says comes before what they say. -/
theorem mapM_word?_cons (a : Argument) (as : List Argument) :
    (a :: as).mapM Argument.word? =
      a.word?.bind fun w => (as.mapM Argument.word?).map (w :: ·) := by
  rw [List.mapM_cons]
  cases a.word? with
  | none => rfl
  | some w => cases as.mapM Argument.word? <;> rfl

/-- An option that takes a value takes the next word. -/
theorem arguments_valued {word : String} {read : String → Option Setting}
    (h : valuedOptions.lookup word = some read) (value : String) (rest : List String) :
    arguments (word :: value :: rest) = .option word (some value) :: arguments rest := by
  rw [arguments.eq_def]
  simp only [h]

/-- Any other word stands for itself. -/
theorem arguments_single {word : String} (h : valuedOptions.lookup word = none)
    (rest : List String) :
    arguments (word :: rest) =
      (if isUnknownOption word then .option word none else .bare word) :: arguments rest := by
  rw [arguments.eq_def]
  simp only [h]

/-- A command line without two dashes is read argument by argument. -/
theorem readWords_eq_mapM {words : List String}
    (hdashes : ∀ a ∈ arguments words, a.lane ≠ some "--") :
    readWords words = (arguments words).mapM Argument.word? := by
  fun_induction readWords words with
  | case1 => rfl
  | case2 => exact absurd rfl (hdashes _ List.mem_cons_self)
  | case3 text => exact absurd rfl (hdashes _ List.mem_cons_self)
  | case4 word rest _ _ hword =>
    -- A word that asks for help, since two dashes are ruled out.
    have hhelp : word ∈ helpWords := by
      rcases Bool.or_eq_true_iff.mp hword with hdash | hhelp
      · obtain rfl := of_decide_eq_true hdash
        rw [arguments_single rfl] at hdashes
        exact absurd rfl (hdashes _ List.mem_cons_self)
      · exact List.contains_iff_mem.mp hhelp
    obtain ⟨hvalued, hflag, hoption⟩ := isUnknownOption_of_mem_helpWords word hhelp
    rw [arguments_single hvalued, if_pos hoption, mapM_word?_cons, Argument.word?, hflag]
    rfl
  | case5 word rest _ _ _ s hflag ih =>
    obtain ⟨hvalued, hoption⟩ := isUnknownOption_of_mem_flags _ (Keyed.mem_of_get? hflag)
    rw [arguments_single hvalued] at hdashes ⊢
    rw [ih fun a ha => hdashes a (List.mem_cons_of_mem _ ha), if_pos hoption, mapM_word?_cons,
      Argument.word?, hflag]
    rfl
  | case6 word _ hflag read hvalued =>
    have hone : arguments [word] = [.option word none] := by
      rw [arguments.eq_def]
      simp only [hvalued]
    rw [hone, mapM_word?_cons, Argument.word?, hflag]
    rfl
  | case7 word _ _ read value rest hvalued _ _ ih =>
    have hword : (Argument.option word (some value)).word? = (read value).map .setting := by
      rw [Argument.word?, hvalued, Option.bind_some]
    rw [arguments_valued hvalued] at hdashes ⊢
    rw [ih fun a ha => hdashes a (List.mem_cons_of_mem _ ha), mapM_word?_cons, hword]
    cases read value with
    | none => rfl
    | some s => cases (arguments rest).mapM Argument.word? <;> rfl
  | case8 word _ hflag rest hvalued hoption =>
    rw [arguments_single hvalued, if_pos hoption, mapM_word?_cons, Argument.word?, hflag]
    rfl
  | case9 word _ _ rest hvalued hbare _ _ ih =>
    rw [arguments_single hvalued] at hdashes ⊢
    rw [ih fun a ha => hdashes a (List.mem_cons_of_mem _ ha), if_neg hbare, mapM_word?_cons]
    rfl

/-! ### Options -/

/-- Options say the same if they agree in all that they say, what they ask of an image being a map
whose order does not count. -/
structure Options.SameAs (o o' : Options) : Prop where
  format : o.format = o'.format
  output : ∀ key, o.output.get? key = o'.output.get? key
  layout : o.layout = o'.layout
  config : o.config = o'.config
  emitsScene : o.emitsScene = o'.emitsScene
  pretty : o.pretty = o'.pretty
  out : o.out = o'.out

/-- Saying the same is an equivalence. -/
theorem Options.sameAs_equivalence : Equivalence Options.SameAs where
  refl _ := ⟨rfl, fun _ => rfl, rfl, rfl, rfl, rfl, rfl⟩
  symm h := ⟨h.format.symm, fun key => (h.output key).symm, h.layout.symm, h.config.symm,
    h.emitsScene.symm, h.pretty.symm, h.out.symm⟩
  trans h h' := ⟨h.format.trans h'.format, fun key => (h.output key).trans (h'.output key),
    h.layout.trans h'.layout, h.config.trans h'.config, h.emitsScene.trans h'.emitsScene,
    h.pretty.trans h'.pretty, h.out.trans h'.out⟩

/-- Options that say the same still do so with one more setting. -/
theorem Options.SameAs.set {o o' : Options} (h : o.SameAs o') (s : Setting) :
    (o.set s).SameAs (o'.set s) := by
  cases s with
  | format _ => exact { h with format := rfl }
  | output members =>
    have houtput (key : String) : (o.output.putAll members).get? key =
        (o'.output.putAll members).get? key := Keyed.get?_putAll_congr (h.output key) members
    exact { h with output := houtput }
  | layout _ => exact { h with layout := rfl }
  | config _ => exact { h with config := rfl }
  | emitsScene => exact { h with emitsScene := rfl }
  | pretty => exact { h with pretty := rfl }
  | out _ => exact { h with out := rfl }

/-- What a setting sets. -/
inductive Slot where
  | format
  /-- A member of the request for an image. -/
  | member (key : String)
  | layout
  | config
  | emitsScene
  | pretty
  | out
  deriving DecidableEq, Repr

/-- All that a setting sets. -/
def Setting.slots : Setting → List Slot
  | .format _ => [.format]
  | .output members => (Keyed.keys members).map .member
  | .layout _ => [.layout]
  | .config _ => [.config]
  | .emitsScene => [.emitsScene]
  | .pretty => [.pretty]
  | .out _ => [.out]

/-- Settings that set different things can be swapped. -/
theorem Options.sameAs_set_set {s t : Setting} (h : ∀ slot ∈ s.slots, slot ∉ t.slots)
    (o : Options) : ((o.set s).set t).SameAs ((o.set t).set s) := by
  have hrefl : ∀ o : Options, o.SameAs o := Options.sameAs_equivalence.refl
  cases s with
  | output members =>
    cases t with
    | output members' =>
      have hkeys : ∀ key ∈ Keyed.keys members, key ∉ Keyed.keys members' := by
        intro key hkey hkey'
        exact h (.member key) (List.mem_map_of_mem hkey) (List.mem_map_of_mem hkey')
      exact { hrefl o with output := Keyed.get?_putAll_swap o.output hkeys }
    | _ => exact hrefl _
  | format _ =>
    cases t with
    | format _ => exact absurd List.mem_cons_self (h .format List.mem_cons_self)
    | _ => exact hrefl _
  | layout _ =>
    cases t with
    | layout _ => exact absurd List.mem_cons_self (h .layout List.mem_cons_self)
    | _ => exact hrefl _
  | config _ =>
    cases t with
    | config _ => exact absurd List.mem_cons_self (h .config List.mem_cons_self)
    | _ => exact hrefl _
  | emitsScene => cases t <;> exact hrefl _
  | pretty => cases t <;> exact hrefl _
  | out _ =>
    cases t with
    | out _ => exact absurd List.mem_cons_self (h .out List.mem_cons_self)
    | _ => exact hrefl _

/-- What the option of each name sets. -/
def optionSlots : List (String × Slot) := [
  ("--pretty", .pretty),
  ("--emit-scene", .emitsScene),
  ("--dark", .member "darkMode"),
  ("--format", .format),
  ("--scale", .member "exportScale"),
  ("--padding", .member "exportPadding"),
  ("--max-size", .member "maxSize"),
  ("--quality", .member "quality"),
  ("--background", .member "backgroundColor"),
  ("--layout", .layout),
  ("--config", .config),
  ("--out", .out)]

/-- Options of different names set different things. -/
theorem optionSlots_injective :
    ∀ e ∈ optionSlots, ∀ e' ∈ optionSlots, e.2 = e'.2 → e.1 = e'.1 := by decide

/-- An option without a value sets what its name says. -/
theorem mem_optionSlots_of_mem_flags :
    ∀ e ∈ flags, ∀ slot ∈ e.2.slots, (e.1, slot) ∈ optionSlots := by
  simp only [flags, List.forall_mem_cons]
  refine ⟨?_, ?_, ?_, List.forall_mem_nil _⟩ <;> decide

/-- A number as the value of an option sets one member. -/
theorem slots_numberSetting? {key word : String} {s : Setting}
    (h : numberSetting? key word = some s) : ∀ slot ∈ s.slots, slot = .member key := by
  obtain ⟨x, -, rfl⟩ := Option.map_eq_some_iff.mp h
  exact fun slot hslot => List.mem_singleton.mp hslot

/-- A background as the value of an option sets at most the background. -/
theorem slots_backgroundSetting (word : String) :
    ∀ slot ∈ (backgroundSetting word).slots, slot = .member "backgroundColor" := by
  unfold backgroundSetting
  dsimp only
  split
  · exact List.forall_mem_nil _
  · exact fun slot hslot => List.mem_singleton.mp hslot

/-- An option with a value sets what its name says. -/
theorem mem_optionSlots_of_mem_valuedOptions :
    ∀ e ∈ valuedOptions, ∀ value s, e.2 value = some s → ∀ slot ∈ s.slots,
      (e.1, slot) ∈ optionSlots := by
  have hnamed {name : String} (slot : Slot) (hname : (name, slot) ∈ optionSlots)
      {read : String → Option Setting}
      (hread : ∀ value s, read value = some s → ∀ slot' ∈ s.slots, slot' = slot) :
      ∀ value s, read value = some s → ∀ slot' ∈ s.slots, (name, slot') ∈ optionSlots :=
    fun value s hs slot' hslot => hread value s hs slot' hslot ▸ hname
  have hnumber (key : String) : ∀ value s, numberSetting? key value = some s →
      ∀ slot ∈ s.slots, slot = .member key := fun _ _ => slots_numberSetting?
  have hother {slot : Slot} {f : String → Setting} (hf : ∀ value, (f value).slots = [slot]) :
      ∀ value s, some (f value) = some s → ∀ slot' ∈ s.slots, slot' = slot := by
    rintro value _ ⟨⟩ slot' hslot
    rw [hf value] at hslot
    exact List.mem_singleton.mp hslot
  simp only [valuedOptions, List.forall_mem_cons]
  refine ⟨hnamed .format (by decide) ?_, hnamed (.member _) (by decide) (hnumber _),
    hnamed (.member _) (by decide) (hnumber _), hnamed (.member _) (by decide) (hnumber _),
    hnamed (.member _) (by decide) (hnumber _),
    hnamed (.member "backgroundColor") (by decide) ?_,
    hnamed .layout (by decide) (hother fun _ => rfl),
    hnamed .config (by decide) (hother fun _ => rfl),
    hnamed .out (by decide) (hother fun _ => rfl), List.forall_mem_nil _⟩
  · intro value s hs slot hslot
    obtain ⟨format, -, rfl⟩ := Option.map_eq_some_iff.mp hs
    exact List.mem_singleton.mp hslot
  · rintro value _ ⟨⟩
    exact slots_backgroundSetting value

/-- What an option says, if it says anything, is a setting of what its name says. -/
theorem word?_option (name : String) (value : Option String) :
    (Argument.option name value).word? = none ∨
      ∃ s, (Argument.option name value).word? = some (.setting s) ∧
        ∀ slot ∈ s.slots, (name, slot) ∈ optionSlots := by
  rcases value with _ | value
  · rw [Argument.word?]
    cases hflag : flags.lookup name with
    | none => exact .inl rfl
    | some s => exact .inr ⟨s, rfl, mem_optionSlots_of_mem_flags _ (Keyed.mem_of_get? hflag)⟩
  · rw [Argument.word?]
    cases hread : (valuedOptions.lookup name).bind (· value) with
    | none => exact .inl rfl
    | some s =>
      obtain ⟨read, hvalued, hvalue⟩ := Option.bind_eq_some_iff.mp hread
      exact .inr ⟨s, rfl, mem_optionSlots_of_mem_valuedOptions _ (Keyed.mem_of_get? hvalued) value s
        hvalue⟩

/-- Options of different names can be swapped. -/
theorem sameAs_set_set_of_ne {name name' : String} (hne : name ≠ name') {s t : Setting}
    (hs : ∀ slot ∈ s.slots, (name, slot) ∈ optionSlots)
    (ht : ∀ slot ∈ t.slots, (name', slot) ∈ optionSlots) (o : Options) :
    ((o.set s).set t).SameAs ((o.set t).set s) := by
  apply Options.sameAs_set_set
  intro slot hslot hslot'
  exact hne (optionSlots_injective _ (hs slot hslot) _ (ht slot hslot') rfl)

/-! ### Drafts -/

/-- Drafts say the same. -/
structure Draft.SameAs (d d' : Draft) : Prop where
  command : d.command = d'.command
  input : d.input = d'.input
  options : d.options.SameAs d'.options

/-- Saying the same is an equivalence of drafts. -/
theorem Draft.sameAs_equivalence : Equivalence Draft.SameAs where
  refl d := ⟨rfl, rfl, Options.sameAs_equivalence.refl d.options⟩
  symm h := ⟨h.command.symm, h.input.symm, Options.sameAs_equivalence.symm h.options⟩
  trans h h' := ⟨h.command.trans h'.command, h.input.trans h'.input,
    Options.sameAs_equivalence.trans h.options h'.options⟩

/-- The draft with one more argument. -/
def Draft.take (d : Draft) (a : Argument) : Option Draft := a.word?.bind d.place

/-- The draft with other options. -/
def Draft.withOptions (d : Draft) (o : Options) : Draft := { d with options := o }

/-- A bare word takes its place whatever the options are, and leaves them as they are. -/
theorem place_bare_withOptions (d : Draft) (o : Options) (text : String) :
    (d.withOptions o).place (.bare text) =
      (d.place (.bare text)).map fun d' => d'.withOptions o := by
  have hinput : (d.withOptions o).setInput? text =
      (d.setInput? text).map fun d' => d'.withOptions o := by
    unfold Draft.setInput? Draft.withOptions
    dsimp only
    split <;> rfl
  unfold Draft.place
  have hcommand : (d.withOptions o).command = d.command := rfl
  rw [hcommand]
  dsimp only
  split
  · rfl
  · exact hinput

/-- A bare word leaves the options as they are. -/
theorem options_of_place_bare {d d' : Draft} {text : String}
    (h : d.place (.bare text) = some d') : d'.options = d.options := by
  have hsame : d.place (.bare text) =
      (d.place (.bare text)).map fun d' => d'.withOptions d.options :=
    place_bare_withOptions d d.options text
  rw [h, Option.map_some, Option.some.injEq] at hsame
  have hoptions : d'.options = (d'.withOptions d.options).options := congrArg Draft.options hsame
  exact hoptions

/-- Drafts that say the same still do so with one more argument. -/
theorem Draft.SameAs.take {d d' : Draft} (h : d.SameAs d') (a : Argument) :
    Option.Rel Draft.SameAs (d.take a) (d'.take a) := by
  unfold Draft.take
  cases a with
  | option name value =>
    rcases word?_option name value with hnone | ⟨s, hs, -⟩
    · rw [hnone]
      exact .none
    · rw [hs]
      exact .some { h with options := h.options.set s }
  | bare text =>
    have hd : d' = d.withOptions d'.options := by
      obtain ⟨command, input, options⟩ := d'
      rw [Draft.withOptions, h.command, h.input]
    change Option.Rel Draft.SameAs (d.place (.bare text)) (d'.place (.bare text))
    rw [hd, place_bare_withOptions]
    cases hplace : d.place (.bare text) with
    | none => exact .none
    | some e =>
      have hoptions : e.options.SameAs d'.options := options_of_place_bare hplace ▸ h.options
      exact .some ⟨rfl, rfl, hoptions⟩

/-- An option and a bare word can be swapped. -/
theorem take_option_bare (d : Draft) (name : String) (value : Option String) (text : String) :
    (d.take (.option name value) >>= (·.take (.bare text))) =
      (d.take (.bare text) >>= (·.take (.option name value))) := by
  have hbare (d : Draft) : d.take (.bare text) = d.place (.bare text) := rfl
  rcases word?_option name value with hnone | ⟨s, hs, -⟩
  · have hrefused (d : Draft) : d.take (.option name value) = none := by rw [Draft.take, hnone]; rfl
    rw [hrefused, hbare]
    cases d.place (.bare text) with
    | none => rfl
    | some e => exact (hrefused e).symm
  · have hset (d : Draft) :
        d.take (.option name value) = some (d.withOptions (d.options.set s)) := by
      rw [Draft.take, hs]
      rfl
    rw [hset, hbare]
    change (d.withOptions (d.options.set s)).place (.bare text) = _
    rw [place_bare_withOptions]
    cases hplace : d.place (.bare text) with
    | none => rfl
    | some e =>
      change some (e.withOptions (d.options.set s)) = e.take (.option name value)
      rw [hset, options_of_place_bare hplace]

/-- Arguments on different lanes can be swapped. -/
theorem swappable_take : Swappable Argument.lane Draft.take Draft.SameAs where
  equivalence := Draft.sameAs_equivalence
  respects _ _ a h := h.take a
  swap d a b hne := by
    have houtcome := Option.Rel.equivalence Draft.sameAs_equivalence
    cases a with
    | bare text =>
      cases b with
      | bare text' => exact absurd rfl hne
      | option name value =>
        rw [take_option_bare d name value text]
        exact houtcome.refl _
    | option name value =>
      cases b with
      | bare text =>
        rw [take_option_bare d name value text]
        exact houtcome.refl _
      | option name' value' =>
        have hnames : name ≠ name' := fun h => hne (congrArg some h)
        unfold Draft.take
        rcases word?_option name value with hnone | ⟨s, hs, hslots⟩
        · rcases word?_option name' value' with hnone' | ⟨t, ht, -⟩
          · rw [hnone, hnone']
            exact .none
          · rw [hnone, ht]
            exact .none
        · rcases word?_option name' value' with hnone' | ⟨t, ht, hslots'⟩
          · rw [hs, hnone']
            exact .none
          · rw [hs, ht]
            exact .some ⟨rfl, rfl, sameAs_set_set_of_ne hnames hslots hslots' d.options⟩

/-! ### The command line -/

/-- Arguments of runs say the same. -/
structure Args.SameAs (a b : Args) : Prop where
  command : a.command = b.command
  input : a.input = b.input
  options : a.options.SameAs b.options

/-- Drafts that say the same amount to the same. -/
theorem Draft.SameAs.finish? {d d' : Draft} (h : d.SameAs d') :
    Option.Rel Args.SameAs d.finish? d'.finish? := by
  obtain ⟨command, input, options⟩ := d
  obtain ⟨command', input', options'⟩ := d'
  obtain ⟨rfl, rfl, hoptions⟩ := h
  cases command with
  | none => exact .none
  | some command =>
    have hcomplete : isComplete command options = isComplete command options' := by
      unfold isComplete
      rw [hoptions.format, hoptions.layout]
    change Option.Rel Args.SameAs (if isComplete command options then _ else _)
      (if isComplete command options' then _ else _)
    rw [hcomplete]
    split
    · exact .some ⟨rfl, rfl, hoptions⟩
    · exact .none

/-- To read all arguments and then place them is to take one after the other. -/
theorem mapM_bind_foldlM_place (as : List Argument) (d : Draft) :
    (as.mapM Argument.word?).bind (fun words => words.foldlM Draft.place d) =
      as.foldlM Draft.take d := by
  induction as generalizing d with
  | nil => rfl
  | cons a as ih =>
    rw [mapM_word?_cons, List.foldlM_cons, Draft.take]
    cases a.word? with
    | none => rfl
    | some word =>
      change ((as.mapM Argument.word?).map (word :: ·)).bind _ = d.place word >>= _
      cases hplace : d.place word with
      | none =>
        cases as.mapM Argument.word? with
        | none => rfl
        | some words =>
          change (word :: words).foldlM Draft.place d = none
          rw [List.foldlM_cons, hplace]
          rfl
      | some e =>
        change _ = as.foldlM Draft.take e
        rw [← ih e]
        cases as.mapM Argument.word? with
        | none => rfl
        | some words =>
          change (word :: words).foldlM Draft.place d = words.foldlM Draft.place e
          rw [List.foldlM_cons, hplace]
          rfl

/-- A command line without two dashes is read argument by argument. -/
theorem ofWords?_eq_foldlM {words : List String} (hdashes : valuesOf "--" words = []) :
    Args.ofWords? words = ((arguments words).foldlM Draft.take .empty).bind Draft.finish? := by
  have hlanes : ∀ a ∈ arguments words, a.lane ≠ some "--" := by
    intro a ha hlane
    have hmem : a ∈ (arguments words).filter (Argument.lane · = some "--") :=
      List.mem_filter.mpr ⟨ha, by simpa using hlane⟩
    rw [filter_lane_some] at hmem
    exact absurd hdashes (List.ne_nil_of_mem (List.mem_map.mp hmem).choose_spec.1)
  rw [← mapM_bind_foldlM_place, ← readWords_eq_mapM hlanes, Option.bind_assoc]
  rfl

/-- The arrangement of a command line makes no difference: if its bare words and the values of each
single option stay in their order, it is wrong or asks for the same as before.  A command line on
which two dashes stand is not meant, unless they are the value of an option. -/
theorem sameAs_ofWords? {words words' : List String} (h : Rearranged words words')
    (hdashes : valuesOf "--" words = []) :
    Option.Rel Args.SameAs (Args.ofWords? words) (Args.ofWords? words') := by
  have hdashes' : valuesOf "--" words' = [] := (h.valuesOf_eq "--").symm.trans hdashes
  have hdrafts := swappable_take.rel_foldlM h.sameLanes Draft.empty
  rw [ofWords?_eq_foldlM hdashes, ofWords?_eq_foldlM hdashes']
  exact hdrafts.bind fun _ _ hd => hd.finish?

/-- A command line with two options that ask something of the image, and one that is set twice. -/
def optionsFirst : List String :=
  ["--dark", "render", "--background", "red", "in.json", "--format", "svg", "--format", "png"]

/-- The same command line with its options in another arrangement. -/
def optionsBetween : List String :=
  ["render", "--format", "svg", "--background", "red", "in.json", "--dark", "--format", "png"]

/-- The two command lines have the same bare words and the same options. -/
theorem rearranged_optionsFirst : Rearranged optionsFirst optionsBetween := by
  have hfirst : arguments optionsFirst = [.option "--dark" none, .bare "render",
      .option "--background" (some "red"), .bare "in.json", .option "--format" (some "svg"),
      .option "--format" (some "png")] := by decide +kernel
  have hbetween : arguments optionsBetween = [.bare "render", .option "--format" (some "svg"),
      .option "--background" (some "red"), .bare "in.json", .option "--dark" none,
      .option "--format" (some "png")] := by decide +kernel
  constructor
  · rw [bareWords, bareWords, hfirst, hbetween]
    rfl
  · intro name
    rw [valuesOf, valuesOf, hfirst, hbetween]
    by_cases hdark : "--dark" = name
    · subst hdark
      rfl
    by_cases hbackground : "--background" = name
    · subst hbackground
      rfl
    by_cases hformat : "--format" = name
    · subst hformat
      rfl
    simp only [List.filterMap_cons, List.filterMap_nil, Argument.valueOf?, if_neg hdark,
      if_neg hbackground, if_neg hformat]

/-- Both ask for the same, although the options about the image stand in another order. -/
theorem sameAs_optionsFirst :
    Rearranged optionsFirst optionsBetween ∧ valuesOf "--" optionsFirst = [] ∧
      (Args.ofWords? optionsFirst).isSome = true ∧
      Option.Rel Args.SameAs (Args.ofWords? optionsFirst) (Args.ofWords? optionsBetween) := by
  have hdashes : valuesOf "--" optionsFirst = [] := by decide +kernel
  have hsome : (Args.ofWords? optionsFirst).isSome = true := by decide +kernel
  exact ⟨rearranged_optionsFirst, hdashes, hsome, sameAs_ofWords? rearranged_optionsFirst hdashes⟩

end Cli

end DiagramScene
