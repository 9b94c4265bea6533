import Mathlib
import DiagramScene.Svg.Markup

/-!
# Reading markup

What a text of markup says, without regard to how it came to be.  A reading takes characters from
the front of a text and leaves the rest: `ReadsChar`, `ReadsValue`, `ReadsName` and
`ReadsAttributes` read the parts of a tag, and `Reads` reads character data and elements, each of
which closes itself or ends in a tag of its own name.

The rules are strict.  A character that has a meaning in markup stands in a value or in character
data only as an entity, and a tag has no two attributes of one name.  They leave no choice, either:
a text has one reading at most (`Reads.unique`).
-/

namespace DiagramScene.Svg

/-- What a text of markup says: characters, and elements with what is inside of them. -/
inductive Item where
  | char (c : Char)
  | element (name : String) (attributes : List Attribute) (content : List Item)

/-- The entities, with the characters that they stand for. -/
def entities : List (List Char × Char) :=
  [(['&', 'a', 'm', 'p', ';'], '&'), (['&', 'l', 't', ';'], '<'), (['&', 'g', 't', ';'], '>'),
    (['&', 'q', 'u', 'o', 't', ';'], '"'), (['&', '#', '3', '9', ';'], '\'')]

/-- The characters that never stand for themselves in values and character data. -/
def markupChars : List Char := ['<', '>', '"', '&']

/-- The characters of names. -/
def isNameChar (c : Char) : Bool := c.isAlphanum || c == ':' || c == '-'

/-- A name begins with a letter. -/
def isNameText : List Char → Bool
  | [] => false
  | c :: cs => c.isAlpha && cs.all isNameChar

/-! ### Readings -/

/-- A character, as itself or as an entity. -/
inductive ReadsChar : List Char → Char → List Char → Prop
  | raw {c : Char} {rest : List Char} : c ∉ markupChars → ReadsChar (c :: rest) c rest
  | entity {name rest : List Char} {c : Char} :
      (name, c) ∈ entities → ReadsChar (name ++ rest) c rest

/-- A value up to the quotation mark behind it. -/
inductive ReadsValue : List Char → List Char → List Char → Prop
  | done {rest : List Char} : ReadsValue ('"' :: rest) [] rest
  | next {cs cs₁ value rest : List Char} {c : Char} :
      ReadsChar cs c cs₁ → ReadsValue cs₁ value rest → ReadsValue cs (c :: value) rest

/-- A name, which takes all characters that may belong to it. -/
structure ReadsName (cs : List Char) (name : String) (rest : List Char) : Prop where
  isName : isNameText name.toList = true
  eq_append : cs = name.toList ++ rest
  head_rest : ∀ c ∈ rest.head?, isNameChar c = false

/-- The attributes of a tag up to its end, no two of one name. -/
inductive ReadsAttributes : List Char → List Attribute → List Char → Prop
  | done {rest : List Char} : rest.head? ≠ some ' ' → ReadsAttributes rest [] rest
  | next {cs cs₁ cs₂ rest : List Char} {name value : String} {attributes : List Attribute} :
      ReadsName cs name ('=' :: '"' :: cs₁) → ReadsValue cs₁ value.toList cs₂ →
      ReadsAttributes cs₂ attributes rest → name ∉ attributes.map (·.1) →
      ReadsAttributes (' ' :: cs) ((name, value) :: attributes) rest

/-- Character data and elements, up to the end of the text or to a closing tag that belongs to none
of the elements. -/
inductive Reads : List Char → List Item → List Char → Prop
  | finished : Reads [] [] []
  | closing {cs : List Char} : Reads ('<' :: '/' :: cs) [] ('<' :: '/' :: cs)
  | char {cs cs₁ rest : List Char} {c : Char} {items : List Item} :
      ReadsChar cs c cs₁ → Reads cs₁ items rest → Reads cs (.char c :: items) rest
  /-- A tag that closes itself. -/
  | leaf {cs cs₁ cs₂ rest : List Char} {name : String} {attributes : List Attribute}
      {items : List Item} :
      ReadsName cs name cs₁ → ReadsAttributes cs₁ attributes ('/' :: '>' :: cs₂) →
      Reads cs₂ items rest → Reads ('<' :: cs) (.element name attributes [] :: items) rest
  /-- A tag, what is inside of it, and the closing tag of the same name. -/
  | branch {cs cs₁ cs₂ cs₃ cs₄ rest : List Char} {name : String} {attributes : List Attribute}
      {content items : List Item} :
      ReadsName cs name cs₁ → ReadsAttributes cs₁ attributes ('>' :: cs₂) →
      Reads cs₂ content ('<' :: '/' :: cs₃) → ReadsName cs₃ name ('>' :: cs₄) →
      Reads cs₄ items rest → Reads ('<' :: cs) (.element name attributes content :: items) rest

/-! ### A text has one reading -/

variable {cs cs' rest rest' : List Char}

/-- The entities begin with the same character, which stands for itself nowhere. -/
theorem exists_of_mem_entities {name : List Char} {c : Char} (h : (name, c) ∈ entities) :
    ∃ tail, name = '&' :: tail := by
  simp only [entities, List.mem_cons, Prod.mk.injEq, List.not_mem_nil, or_false] at h
  rcases h with ⟨rfl, _⟩ | ⟨rfl, _⟩ | ⟨rfl, _⟩ | ⟨rfl, _⟩ | ⟨rfl, _⟩ <;> exact ⟨_, rfl⟩

/-- No character is read where markup begins or a value ends. -/
theorem ReadsChar.head_eq {c d : Char} {ds : List Char} (h : ReadsChar cs c rest)
    (heq : cs = d :: ds) : d ∉ markupChars ∨ d = '&' := by
  cases h with
  | raw hc =>
    obtain ⟨rfl, _⟩ := List.cons.inj heq
    exact .inl hc
  | entity hmem =>
    obtain ⟨tail, rfl⟩ := exists_of_mem_entities hmem
    obtain ⟨rfl, _⟩ := List.cons.inj heq
    exact .inr rfl

/-- No character is read from an empty text. -/
theorem ReadsChar.ne_nil {c : Char} (h : ReadsChar cs c rest) : cs ≠ [] := by
  cases h with
  | raw _ => exact List.cons_ne_nil _ _
  | entity hmem =>
    obtain ⟨tail, rfl⟩ := exists_of_mem_entities hmem
    exact List.cons_ne_nil _ _

/-- A text begins with one character in one way. -/
theorem ReadsChar.unique {c c' : Char} (h : ReadsChar cs c rest) (h' : ReadsChar cs' c' rest')
    (heq : cs = cs') : c = c' ∧ rest = rest' := by
  cases h with
  | raw hc =>
    cases h' with
    | raw _ => exact List.cons.inj heq
    | entity hmem =>
      obtain ⟨tail, rfl⟩ := exists_of_mem_entities hmem
      obtain ⟨rfl, _⟩ := List.cons.inj heq
      exact absurd (by decide) hc
  | entity hmem =>
    cases h' with
    | raw hc =>
      obtain ⟨tail, rfl⟩ := exists_of_mem_entities hmem
      obtain ⟨rfl, _⟩ := List.cons.inj heq
      exact absurd (by decide) hc
    | entity hmem' =>
      -- No entity is the beginning of another one.
      simp only [entities, List.mem_cons, Prod.mk.injEq, List.not_mem_nil, or_false] at hmem hmem'
      rcases hmem with ⟨rfl, rfl⟩ | ⟨rfl, rfl⟩ | ⟨rfl, rfl⟩ | ⟨rfl, rfl⟩ | ⟨rfl, rfl⟩ <;>
        rcases hmem' with ⟨rfl, rfl⟩ | ⟨rfl, rfl⟩ | ⟨rfl, rfl⟩ | ⟨rfl, rfl⟩ | ⟨rfl, rfl⟩ <;>
        simp_all

/-- A text begins with one value in one way. -/
theorem ReadsValue.unique {value value' : List Char} (h : ReadsValue cs value rest)
    (h' : ReadsValue cs value' rest') : value = value' ∧ rest = rest' := by
  induction h generalizing value' rest' with
  | done =>
    generalize hds : '"' :: _ = ds at h'
    cases h' with
    | done => exact ⟨rfl, (List.cons.inj hds).2⟩
    | next hchar _ => exact absurd (hchar.head_eq hds.symm) (by decide)
  | next hchar _ ih =>
    cases h' with
    | done => exact absurd (hchar.head_eq rfl) (by decide)
    | next hchar' hvalue =>
      obtain ⟨rfl, rfl⟩ := hchar.unique hchar' rfl
      obtain ⟨rfl, rfl⟩ := ih hvalue
      exact ⟨rfl, rfl⟩

/-- The characters of a name are characters of names. -/
theorem isNameChar_of_isNameText {name : List Char} (h : isNameText name = true) :
    ∀ c ∈ name, isNameChar c = true := by
  intro c hc
  cases name with
  | nil => exact absurd hc List.not_mem_nil
  | cons d ds =>
    obtain ⟨hd, hds⟩ := Bool.and_eq_true_iff.mp h
    rcases List.mem_cons.mp hc with rfl | hc
    · simp [isNameChar, Char.isAlphanum, hd]
    · exact List.all_eq_true.mp hds c hc

/-- The name at the front of a text is made of all characters of names there. -/
theorem ReadsName.takeWhile_eq {name : String} (h : ReadsName cs name rest) :
    cs.takeWhile isNameChar = name.toList := by
  rw [h.eq_append, List.takeWhile_append_of_pos (isNameChar_of_isNameText h.isName)]
  cases rest with
  | nil => exact List.append_nil _
  | cons c rest => rw [List.takeWhile_cons_of_neg (by simp [h.head_rest c rfl]), List.append_nil]

/-- A text begins with one name in one way. -/
theorem ReadsName.unique {name name' : String} (h : ReadsName cs name rest)
    (h' : ReadsName cs name' rest') : name = name' ∧ rest = rest' := by
  have hname := h.takeWhile_eq
  rw [h'.takeWhile_eq] at hname
  obtain rfl := String.toList_injective hname
  have hrest := h.eq_append
  rw [h'.eq_append] at hrest
  exact ⟨rfl, (List.append_cancel_left hrest).symm⟩

/-- A text begins with one list of attributes in one way. -/
theorem ReadsAttributes.unique {attributes attributes' : List Attribute}
    (h : ReadsAttributes cs attributes rest) (h' : ReadsAttributes cs attributes' rest') :
    attributes = attributes' ∧ rest = rest' := by
  induction h generalizing attributes' rest' with
  | done hhead =>
    cases h' with
    | done _ => exact ⟨rfl, rfl⟩
    | next _ _ _ _ => exact absurd rfl hhead
  | next hname hvalue _ _ ih =>
    cases h' with
    | done hhead => exact absurd rfl hhead
    | next hname' hvalue' hrest _ =>
      obtain ⟨rfl, hcs⟩ := hname.unique hname'
      obtain ⟨_, rfl⟩ := hcs
      obtain ⟨hval, rfl⟩ := hvalue.unique hvalue'
      obtain ⟨rfl, rfl⟩ := ih hrest
      exact ⟨by rw [String.toList_injective hval], rfl⟩

/-- No name begins with a slash. -/
theorem ReadsName.head_ne {name : String} (h : ReadsName ('/' :: cs) name rest) : False := by
  have hname := h.isName
  have heq := h.eq_append
  cases hlist : name.toList with
  | nil =>
    rw [hlist] at hname
    exact Bool.noConfusion hname
  | cons c tail =>
    rw [hlist] at hname heq
    obtain ⟨rfl, _⟩ := List.cons.inj heq
    have hslash : isNameText ('/' :: tail) = false := rfl
    rw [hslash] at hname
    exact Bool.noConfusion hname

/-- No character is read where a tag begins. -/
theorem ReadsChar.not_tag {c : Char} (h : ReadsChar ('<' :: cs) c rest) : False :=
  absurd (h.head_eq rfl) (by decide)

/-- A text says one thing at most. -/
theorem Reads.unique {items items' : List Item} (h : Reads cs items rest)
    (h' : Reads cs items' rest') : items = items' ∧ rest = rest' := by
  -- The first character tells which rule applies, but a tag shows only at its end whether it
  -- closes itself: by then both readings have the same name and the same attributes.
  induction h generalizing items' rest' with
  | finished =>
    generalize hds : ([] : List Char) = ds at h'
    cases h' with
    | finished => exact ⟨rfl, rfl⟩
    | char hchar _ =>
      subst hds
      exact absurd rfl hchar.ne_nil
    | closing | leaf | branch => exact nomatch hds
  | closing =>
    cases h' with
    | closing => exact ⟨rfl, rfl⟩
    | char hchar _ => exact hchar.not_tag.elim
    | leaf hname _ _ => exact hname.head_ne.elim
    | branch hname _ _ _ _ => exact hname.head_ne.elim
  | char hchar _ ih =>
    cases h' with
    | finished => exact absurd rfl hchar.ne_nil
    | char hchar' hitems =>
      obtain ⟨rfl, rfl⟩ := hchar.unique hchar' rfl
      obtain ⟨rfl, rfl⟩ := ih hitems
      exact ⟨rfl, rfl⟩
    | closing | leaf | branch => exact hchar.not_tag.elim
  | leaf hname hattributes _ ih =>
    cases h' with
    | closing => exact hname.head_ne.elim
    | char hchar _ => exact hchar.not_tag.elim
    | leaf hname' hattributes' hitems =>
      obtain ⟨rfl, rfl⟩ := hname.unique hname'
      obtain ⟨rfl, hcs⟩ := hattributes.unique hattributes'
      obtain ⟨_, rfl⟩ := hcs
      obtain ⟨rfl, rfl⟩ := ih hitems
      exact ⟨rfl, rfl⟩
    | branch hname' hattributes' _ _ _ =>
      obtain ⟨rfl, rfl⟩ := hname.unique hname'
      exact absurd (hattributes.unique hattributes').2 (by simp)
  | branch hname hattributes _ hclose _ ihcontent ih =>
    cases h' with
    | closing => exact hname.head_ne.elim
    | char hchar _ => exact hchar.not_tag.elim
    | leaf hname' hattributes' _ =>
      obtain ⟨rfl, rfl⟩ := hname.unique hname'
      exact absurd (hattributes.unique hattributes').2 (by simp)
    | branch hname' hattributes' hcontent hclose' hitems =>
      obtain ⟨rfl, rfl⟩ := hname.unique hname'
      obtain ⟨rfl, hcs⟩ := hattributes.unique hattributes'
      obtain ⟨_, rfl⟩ := hcs
      obtain ⟨rfl, hcs⟩ := ihcontent hcontent
      obtain ⟨_, rfl⟩ := hcs
      obtain ⟨_, hcs⟩ := hclose.unique hclose'
      obtain ⟨_, rfl⟩ := hcs
      obtain ⟨rfl, rfl⟩ := ih hitems
      exact ⟨rfl, rfl⟩

end DiagramScene.Svg
