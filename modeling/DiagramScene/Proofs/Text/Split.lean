import Mathlib
import DiagramScene.Text.Split

/-!
# Texts cut at a sequence

A sequence is found where it first stands.  In a text that was put together of a body, a sequence
and a rest, that is behind the body if the body does not contain the sequence and no place of the
sequence begins in the body and ends in the sequence behind it.  The latter cannot be where the
sequence is `Unbordered`, which gives `splitAtSeq?_append`.
-/

namespace DiagramScene.Text

/-- A sequence does not begin with characters with which it ends, unless with all or none of
them. -/
def Unbordered (sep : List Char) : Prop :=
  ∀ t ∈ sep.inits, t ∈ sep.tails → t = [] ∨ t = sep

instance (sep : List Char) : Decidable (Unbordered sep) :=
  inferInstanceAs (Decidable (∀ t ∈ sep.inits, t ∈ sep.tails → t = [] ∨ t = sep))

/-- Nothing follows a sequence with which a text does not begin. -/
theorem after?_eq_none_iff {start cs : List Char} : after? start cs = none ↔ ¬ start <+: cs := by
  rw [Option.eq_none_iff_forall_not_mem]
  constructor
  · rintro h ⟨rest, hrest⟩
    exact h rest (after?_eq_some_iff.mpr hrest.symm)
  · intro h rest hrest
    exact h ⟨rest, (after?_eq_some_iff.mp hrest).symm⟩

/-- A sequence without a character does not reach to the first place of that character. -/
theorem prefix_of_prefix_append_cons {p cs rest : List Char} {c : Char} (hc : c ∉ p)
    (h : p <+: cs ++ c :: rest) : p <+: cs := by
  rcases Nat.lt_or_ge cs.length p.length with hlt | hle
  · have hbehind : cs ++ [c] <+: p := by
      refine List.prefix_of_prefix_length_le ⟨rest, by simp⟩ h ?_
      rw [List.length_append, List.length_singleton]
      exact hlt
    exact absurd (hbehind.mem (by simp)) hc
  · exact List.prefix_of_prefix_length_le h (List.prefix_append cs _) hle

/-- An unbordered sequence that begins in a text before the sequence ends in that text. -/
theorem Unbordered.prefix_of_prefix_append {sep body rest : List Char} (hsep : Unbordered sep)
    (hne : body ≠ []) (h : sep <+: body ++ (sep ++ rest)) : sep <+: body := by
  rcases Nat.lt_or_ge body.length sep.length with hlt | hle
  · -- Otherwise the sequence is the body and a part that is also the beginning of the sequence.
    obtain ⟨t, rfl⟩ : body <+: sep :=
      List.prefix_of_prefix_length_le (List.prefix_append body _) h hlt.le
    have hstart : t <+: body ++ t := by
      refine List.prefix_of_prefix_length_le ?_ (List.prefix_append (body ++ t) rest) (by simp)
      rwa [List.append_assoc, List.prefix_append_right_inj, ← List.append_assoc] at h
    have hends : t ∈ (body ++ t).tails := (List.mem_tails ..).mpr (List.suffix_append body t)
    rcases hsep t ((List.mem_inits ..).mpr hstart) hends with ht | ht
    · rw [ht, List.append_nil] at hlt
      exact absurd hlt (lt_irrefl _)
    · exact absurd (List.self_eq_append_left.mp ht) hne
  · exact List.prefix_of_prefix_length_le h (List.prefix_append body _) hle

/-- A text that does not begin with a sequence is cut behind its first character. -/
theorem splitAtSeq?_cons {sep cs : List Char} {c : Char} (h : ¬ sep <+: c :: cs) :
    splitAtSeq? sep (c :: cs) =
      (splitAtSeq? sep cs).map fun (before, after) => (c :: before, after) := by
  rw [splitAtSeq?, after?_eq_none_iff.mpr h]

/-- A text that begins with a sequence is cut there. -/
theorem splitAtSeq?_append_self {sep : List Char} (hne : sep ≠ []) (rest : List Char) :
    splitAtSeq? sep (sep ++ rest) = some ([], rest) := by
  obtain ⟨c, cs, rfl⟩ := List.exists_cons_of_ne_nil hne
  have hafter : after? (c :: cs) (c :: (cs ++ rest)) = some rest := after?_eq_some_iff.mpr rfl
  rw [List.cons_append, splitAtSeq?, hafter]

/-- A text is cut at a sequence behind a body that does not contain it. -/
theorem splitAtSeq?_append {sep : List Char} (hsep : Unbordered sep) {body : List Char}
    (h : ¬ sep <:+: body) (rest : List Char) :
    splitAtSeq? sep (body ++ (sep ++ rest)) = some (body, rest) := by
  induction body with
  | nil =>
    have hne : sep ≠ [] := fun heq => h (heq ▸ List.nil_infix)
    exact splitAtSeq?_append_self hne rest
  | cons c cs ih =>
    have hstart : ¬ sep <+: c :: (cs ++ (sep ++ rest)) := fun hbegins =>
      h (hsep.prefix_of_prefix_append (List.cons_ne_nil c cs) hbegins).isInfix
    have hrest : ¬ sep <:+: cs := fun hwithin => h (hwithin.trans (List.suffix_cons c cs).isInfix)
    rw [List.cons_append, splitAtSeq?_cons hstart, ih hrest]
    rfl

end DiagramScene.Text
