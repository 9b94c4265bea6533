import Mathlib
import DiagramScene.Text.Blank

/-!
# Trimmed texts

A text is trimmed when trimming leaves it as it is, which is when neither its first nor its last
character is blank (`trimChars_eq_self_iff`).  Blank characters more at the ends of a text make no
difference after trimming (`trimChars_surrounded`), and every text is its trimmed text with blank
characters at the ends (`exists_surrounded_trimChars`).  The words of a text are trimmed, as they
have no blank characters at all.
-/

namespace DiagramScene.Text

/-- Dropping the blanks at the end drops a blank last character first. -/
theorem dropBlankEnd_concat {c : Char} (hc : isBlank c = true) (cs : List Char) :
    dropBlankEnd (cs ++ [c]) = dropBlankEnd cs := by
  simp [dropBlankEnd, hc]

/-- Nothing is dropped at the end of a text whose last character is not blank. -/
theorem dropBlankEnd_concat_of_not_blank {c : Char} (hc : isBlank c = false) (cs : List Char) :
    dropBlankEnd (cs ++ [c]) = cs ++ [c] := by
  simp [dropBlankEnd, hc]

/-- A blank character at the end makes no difference to the trimmed text. -/
theorem trimChars_concat {c : Char} (hc : isBlank c = true) (cs : List Char) :
    trimChars (cs ++ [c]) = trimChars cs := by
  unfold trimChars dropBlankStart
  rw [List.dropWhile_append]
  cases h : cs.dropWhile isBlank with
  | nil => simp [hc]
  | cons d ds => exact dropBlankEnd_concat hc (d :: ds)

/-- Trimming makes no text longer. -/
theorem length_trimChars_le (cs : List Char) : (trimChars cs).length ≤ cs.length := by
  have hstart : (dropBlankStart cs).length ≤ cs.length := (List.dropWhile_suffix _).length_le
  have hend : (dropBlankEnd (dropBlankStart cs)).length ≤ (dropBlankStart cs).length := by
    rw [dropBlankEnd, List.length_reverse]
    exact (List.dropWhile_suffix _).length_le.trans_eq List.length_reverse
  exact hend.trans hstart

/-- A trimmed text does not begin with a blank character. -/
theorem not_blank_of_trimChars_cons {c : Char} {cs : List Char}
    (h : trimChars (c :: cs) = c :: cs) : isBlank c = false := by
  by_contra hc
  have hdrop : trimChars (c :: cs) = trimChars cs := by
    rw [trimChars, dropBlankStart_cons_of_blank (by simpa using hc), trimChars]
  have hle := length_trimChars_le cs
  rw [← hdrop, h, List.length_cons] at hle
  omega

/-- A trimmed text does not end with a blank character. -/
theorem not_blank_of_trimChars_concat {c : Char} {cs : List Char}
    (h : trimChars (cs ++ [c]) = cs ++ [c]) : isBlank c = false := by
  by_contra hc
  have hle := length_trimChars_le cs
  rw [← trimChars_concat (by simpa using hc), h, List.length_append, List.length_singleton] at hle
  omega

/-- A text whose first and last characters are not blank is trimmed. -/
theorem trimChars_eq_self {cs : List Char} (hhead : ∀ c, cs.head? = some c → isBlank c = false)
    (hlast : ∀ c, cs.getLast? = some c → isBlank c = false) : trimChars cs = cs := by
  have hstart : dropBlankStart cs = cs := by
    cases cs with
    | nil => rfl
    | cons c cs => exact dropBlankStart_cons_of_not_blank (hhead c rfl) cs
  rw [trimChars, hstart]
  rcases List.eq_nil_or_concat cs with rfl | ⟨cs', c, rfl⟩
  · rfl
  · rw [List.concat_eq_append] at hlast ⊢
    exact dropBlankEnd_concat_of_not_blank (hlast c (by simp)) cs'

/-- A text is trimmed exactly when its first and its last character are not blank. -/
theorem trimChars_eq_self_iff {cs : List Char} :
    trimChars cs = cs ↔ (∀ c, cs.head? = some c → isBlank c = false) ∧
      ∀ c, cs.getLast? = some c → isBlank c = false := by
  refine ⟨fun h => ⟨fun c hc => ?_, fun c hc => ?_⟩, fun h => trimChars_eq_self h.1 h.2⟩
  · obtain ⟨cs', rfl⟩ := List.head?_eq_some_iff.mp hc
    exact not_blank_of_trimChars_cons h
  · obtain ⟨cs', rfl⟩ := List.getLast?_eq_some_iff.mp hc
    exact not_blank_of_trimChars_concat h

/-- A blank character at the start makes no difference to the trimmed text. -/
theorem trimChars_cons {c : Char} (hc : isBlank c = true) (cs : List Char) :
    trimChars (c :: cs) = trimChars cs := by
  rw [trimChars, dropBlankStart_cons_of_blank hc, trimChars]

/-- Blank characters at the ends make no difference to the trimmed text. -/
theorem trimChars_surrounded {before after : List Char} (hbefore : ∀ c ∈ before, isBlank c = true)
    (hafter : ∀ c ∈ after, isBlank c = true) (cs : List Char) :
    trimChars (before ++ cs ++ after) = trimChars cs := by
  have hstart : trimChars (before ++ cs) = trimChars cs := by
    induction before with
    | nil => rfl
    | cons c before ih =>
      rw [List.forall_mem_cons] at hbefore
      rw [List.cons_append, trimChars_cons hbefore.1, ih hbefore.2]
  induction after using List.reverseRecOn with
  | nil => rw [List.append_nil, hstart]
  | append_singleton after c ih =>
    rw [List.forall_mem_append] at hafter
    rw [← List.append_assoc, trimChars_concat (hafter.2 c (List.mem_singleton_self c)), ih hafter.1]

/-- A text is the trimmed text with blank characters at its ends. -/
theorem exists_surrounded_trimChars (cs : List Char) : ∃ before after,
    (∀ c ∈ before, isBlank c = true) ∧ (∀ c ∈ after, isBlank c = true) ∧
      cs = before ++ trimChars cs ++ after := by
  refine ⟨cs.takeWhile isBlank, ((dropBlankStart cs).reverse.takeWhile isBlank).reverse, ?_, ?_, ?_⟩
  · exact fun c hc => List.mem_takeWhile_imp hc
  · exact fun c hc => List.mem_takeWhile_imp (List.mem_reverse.mp hc)
  · have hend : trimChars cs ++ ((dropBlankStart cs).reverse.takeWhile isBlank).reverse =
        dropBlankStart cs := by
      rw [trimChars, dropBlankEnd, ← List.reverse_append, List.takeWhile_append_dropWhile,
        List.reverse_reverse]
    rw [List.append_assoc, hend]
    exact List.takeWhile_append_dropWhile.symm

/-- The characters of a trimmed text are characters of the text. -/
theorem mem_of_mem_trimChars {c : Char} {cs : List Char} (h : c ∈ trimChars cs) : c ∈ cs := by
  obtain ⟨before, after, -, -, heq⟩ := exists_surrounded_trimChars cs
  rw [heq]
  simp [h]

/-- A text that was trimmed is trimmed. -/
theorem trimChars_trimChars (cs : List Char) : trimChars (trimChars cs) = trimChars cs := by
  obtain ⟨before, after, hbefore, hafter, heq⟩ := exists_surrounded_trimChars cs
  conv_rhs => rw [heq, trimChars_surrounded hbefore hafter]

/-- A trimmed text has a character that is not blank, if it has any. -/
theorem exists_not_blank_of_trimChars {cs : List Char} (hne : cs ≠ []) (h : trimChars cs = cs) :
    ∃ c ∈ cs, isBlank c = false := by
  obtain ⟨c, cs', rfl⟩ := List.exists_cons_of_ne_nil hne
  exact ⟨c, List.mem_cons_self .., not_blank_of_trimChars_cons h⟩

theorem trimmed_trimmed (text : String) : trimmed (trimmed text) = trimmed text := by
  simp only [trimmed, String.toList_ofList, trimChars_trimChars]

/-- A trimmed text is not blank, unless it is empty. -/
theorem isBlankText_of_trimmed {text : String} (hne : text ≠ "") (h : trimmed text = text) :
    isBlankText text = false := by
  have hchars : trimChars text.toList = text.toList := by
    simpa [trimmed] using congrArg String.toList h
  obtain ⟨c, hc, hblank⟩ := exists_not_blank_of_trimChars (by simpa using hne) hchars
  exact List.all_eq_false.mpr ⟨c, hc, by simpa using hblank⟩

/-! ### Trimmed texts put together -/

/-- Texts that are not empty are not empty when they are put together. -/
theorem intercalate_ne_nil {sep l : List Char} (ls : List (List Char)) (h : l ≠ []) :
    sep.intercalate (l :: ls) ≠ [] := by
  cases ls with
  | nil => simpa using h
  | cons l' ls => simp [List.intercalate_cons_cons, h]

/-- The first character is that of the first text. -/
theorem head?_intercalate {sep l : List Char} (ls : List (List Char)) (h : l ≠ []) :
    (sep.intercalate (l :: ls)).head? = l.head? := by
  cases ls with
  | nil => simp
  | cons l' ls =>
    rw [List.intercalate_cons_cons, List.append_assoc, List.head?_append_of_ne_nil _ h]

/-- The last character is that of the last text. -/
theorem getLast?_intercalate {sep : List Char} {ls : List (List Char)} (h : ∀ l ∈ ls, l ≠ []) :
    (sep.intercalate ls).getLast? = ls.getLast?.bind List.getLast? := by
  induction ls with
  | nil => rfl
  | cons l ls ih =>
    rw [List.forall_mem_cons] at h
    cases ls with
    | nil => simp
    | cons l' ls =>
      have hne : sep.intercalate (l' :: ls) ≠ [] :=
        intercalate_ne_nil ls (h.2 l' (List.mem_cons_self ..))
      rw [List.intercalate_cons_cons, List.getLast?_append_of_ne_nil _ hne, ih h.2,
        List.getLast?_cons_cons]

/-- Trimmed texts that are not empty are trimmed when they are put together. -/
theorem trimChars_intercalate {sep : List Char} {ls : List (List Char)}
    (h : ∀ l ∈ ls, l ≠ [] ∧ trimChars l = l) :
    trimChars (sep.intercalate ls) = sep.intercalate ls := by
  refine trimChars_eq_self (fun c hc => ?_) (fun c hc => ?_)
  · cases ls with
    | nil => exact nomatch hc
    | cons l ls =>
      obtain ⟨hne, htrim⟩ := h l (List.mem_cons_self ..)
      rw [head?_intercalate ls hne] at hc
      exact (trimChars_eq_self_iff.mp htrim).1 c hc
  · rw [getLast?_intercalate fun l hl => (h l hl).1] at hc
    obtain ⟨l, hl, hc⟩ := Option.bind_eq_some_iff.mp hc
    exact (trimChars_eq_self_iff.mp (h l (List.mem_of_getLast? hl)).2).2 c hc

/-! ### Words -/

/-- A word that comes after an open word is that or one of the others. -/
theorem mem_words_close {word w : List Char} {rest : List (List Char)}
    (h : w ∈ words.close word rest) : w ∈ rest ∨ w ≠ [] ∧ w = word.reverse := by
  unfold words.close at h
  split at h
  · exact .inl h
  · rename_i hne
    rcases List.mem_cons.mp h with rfl | h
    · exact .inr ⟨by simpa using hne, rfl⟩
    · exact .inl h

/-- The words behind an open word have characters of that word and of the text. -/
theorem mem_words_go {word cs w : List Char} (hword : ∀ c ∈ word, isBlank c = false)
    (hw : w ∈ words.go word cs) : w ≠ [] ∧ ∀ c ∈ w, isBlank c = false ∧ (c ∈ word ∨ c ∈ cs) := by
  induction cs generalizing word with
  | nil =>
    rcases mem_words_close hw with h | ⟨hne, rfl⟩
    · exact absurd h List.not_mem_nil
    · exact ⟨hne, fun c hc => ⟨hword c (List.mem_reverse.mp hc), .inl (List.mem_reverse.mp hc)⟩⟩
  | cons d ds ih =>
    rw [words.go] at hw
    split at hw
    · rcases mem_words_close hw with h | ⟨hne, rfl⟩
      · obtain ⟨hne, hmem⟩ := ih (fun c hc => absurd hc List.not_mem_nil) h
        refine ⟨hne, fun c hc => ⟨(hmem c hc).1, .inr (List.mem_cons_of_mem d ?_)⟩⟩
        exact (hmem c hc).2.resolve_left List.not_mem_nil
      · exact ⟨hne, fun c hc => ⟨hword c (List.mem_reverse.mp hc), .inl (List.mem_reverse.mp hc)⟩⟩
    · rename_i hd
      have hword' : ∀ c ∈ d :: word, isBlank c = false :=
        List.forall_mem_cons.mpr ⟨by simpa using hd, hword⟩
      obtain ⟨hne, hmem⟩ := ih hword' hw
      refine ⟨hne, fun c hc => ⟨(hmem c hc).1, ?_⟩⟩
      have hc' := (hmem c hc).2
      simp only [List.mem_cons] at hc' ⊢
      tauto

/-- The words of a text are not empty, and their characters are those of the text that are not
blank. -/
theorem mem_words {cs w : List Char} (hw : w ∈ words cs) :
    w ≠ [] ∧ ∀ c ∈ w, isBlank c = false ∧ c ∈ cs := by
  obtain ⟨hne, hmem⟩ := mem_words_go (fun c hc => absurd hc List.not_mem_nil) hw
  exact ⟨hne, fun c hc => ⟨(hmem c hc).1, (hmem c hc).2.resolve_left List.not_mem_nil⟩⟩

/-- A text without blank characters is trimmed. -/
theorem trimChars_of_not_blank {cs : List Char} (h : ∀ c ∈ cs, isBlank c = false) :
    trimChars cs = cs :=
  trimChars_eq_self (fun c hc => h c (List.mem_of_head? hc))
    fun c hc => h c (List.mem_of_getLast? hc)

end DiagramScene.Text
