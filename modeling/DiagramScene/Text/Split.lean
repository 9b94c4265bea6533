/-!
# Cutting texts

Where a character or a sequence of characters first stands in a text, and what lies before and
after it.
-/

namespace DiagramScene.Text

/-- What follows a sequence at the start of a text. -/
def after? : List Char → List Char → Option (List Char)
  | [], cs => some cs
  | _ :: _, [] => none
  | s :: ss, c :: cs => if s = c then after? ss cs else none

/-- What lies before and after the first place of a character. -/
def splitAtChar? (c : Char) : List Char → Option (List Char × List Char)
  | [] => none
  | d :: cs =>
    if d = c then some ([], cs)
    else (splitAtChar? c cs).map fun (before, after) => (d :: before, after)

/-- What lies before and after the first place of a sequence. -/
def splitAtSeq? (sep : List Char) : List Char → Option (List Char × List Char)
  | [] => if sep.isEmpty then some ([], []) else none
  | d :: cs =>
    match after? sep (d :: cs) with
    | some after => some ([], after)
    | none => (splitAtSeq? sep cs).map fun (before, after) => (d :: before, after)

/-- The parts of a text between the places of a character. -/
def splitOn (sep : Char) : List Char → List (List Char)
  | [] => [[]]
  | c :: cs =>
    if c = sep then [] :: splitOn sep cs
    else match splitOn sep cs with
      | [] => [[c]]
      | p :: ps => (c :: p) :: ps

/-- Texts with a text between each two. -/
def join (sep : List Char) : List (List Char) → List Char
  | [] => []
  | [p] => p
  | p :: q :: ps => p ++ sep ++ join sep (q :: ps)

theorem after?_eq_some_iff {start cs rest : List Char} :
    after? start cs = some rest ↔ cs = start ++ rest := by
  induction start generalizing cs with
  | nil => simp [after?]
  | cons s ss ih =>
    cases cs with
    | nil => simp [after?]
    | cons c cs =>
      by_cases h : s = c
      · subst h
        simp [after?, ih]
      · have h' : ¬ c = s := fun e => h e.symm
        simp [after?, h, h']

theorem length_of_splitAtChar? {c : Char} {cs before after : List Char}
    (h : splitAtChar? c cs = some (before, after)) : after.length < cs.length := by
  induction cs generalizing before with
  | nil => simp [splitAtChar?] at h
  | cons d ds ih =>
    unfold splitAtChar? at h
    split at h
    · simp only [Option.some.injEq, Prod.mk.injEq] at h
      simp [h.2]
    · obtain ⟨⟨b, a⟩, hb, he⟩ := Option.map_eq_some_iff.1 h
      simp only [Prod.mk.injEq] at he
      obtain ⟨_, rfl⟩ := he
      exact Nat.lt_succ_of_lt (ih hb)

theorem length_of_splitAtSeq? {sep cs before after : List Char} (hsep : sep ≠ [])
    (h : splitAtSeq? sep cs = some (before, after)) : after.length < cs.length := by
  induction cs generalizing before with
  | nil => simp [splitAtSeq?, hsep] at h
  | cons d ds ih =>
    unfold splitAtSeq? at h
    split at h
    · rename_i rest hrest
      simp only [Option.some.injEq, Prod.mk.injEq] at h
      have hpos : 0 < sep.length := List.length_pos_iff.2 hsep
      rw [after?_eq_some_iff.1 hrest, ← h.2, List.length_append]
      omega
    · obtain ⟨⟨b, a⟩, hb, he⟩ := Option.map_eq_some_iff.1 h
      simp only [Prod.mk.injEq] at he
      obtain ⟨_, rfl⟩ := he
      exact Nat.lt_succ_of_lt (ih hb)

end DiagramScene.Text
