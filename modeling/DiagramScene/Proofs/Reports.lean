/-!
# Checks that report their first problem

A function that checks things one after the other stops at the first that is wrong.  `Reports` relates
its outcome to the list of all that is wrong, in the order of the checks: the outcome is the first of
them, and if there is none, it is a result with a property.  Two steps one after the other report the
problems of the first and then those of the second (`Reports.bind`), so the lists of problems are put
together along the steps.

`Refines` compares two functions of this kind: where the first has a result, so has the second, and
the two results are related.
-/

namespace DiagramScene

variable {ε β γ : Type}

/-- Two steps one after the other succeed if both do. -/
theorem bind_eq_ok_iff {first : Except ε β} {next : β → Except ε γ} {c : γ} :
    (first >>= next) = .ok c ↔ ∃ b, first = .ok b ∧ next b = .ok c := by
  cases first with
  | error e => exact ⟨nofun, fun ⟨_, h, _⟩ => nomatch h⟩
  | ok b => exact ⟨fun h => ⟨b, rfl, h⟩, fun ⟨_, rfl, h⟩ => h⟩

/-- The outcome is the first problem, or a result with a property if there is no problem. -/
inductive Reports (P : β → Prop) : List ε → Except ε β → Prop
  | ok {b : β} (h : P b) : Reports P [] (.ok b)
  | error (first : ε) (rest : List ε) : Reports P (first :: rest) (.error first)

namespace Reports

variable {P : β → Prop} {problems others : List ε} {outcome : Except ε β}

/-- The problems of one step come before those of the next one. -/
theorem bind {Q : γ → Prop} {next : β → Except ε γ} (h : Reports P problems outcome)
    (hnext : ∀ b, P b → Reports Q others (next b)) :
    Reports Q (problems ++ others) (outcome >>= next) := by
  cases h with
  | ok hb => exact hnext _ hb
  | error first rest => exact .error first (rest ++ others)

/-- A step that always succeeds adds no problems. -/
theorem bind_ok {Q : γ → Prop} {next : β → Except ε γ} (h : Reports P problems outcome)
    (hnext : ∀ b, P b → Reports Q [] (next b)) : Reports Q problems (outcome >>= next) := by
  have hbind := h.bind hnext
  rwa [List.append_nil] at hbind

/-- A function after a step adds no problems. -/
theorem map {Q : γ → Prop} {f : β → γ} (h : Reports P problems outcome)
    (hf : ∀ b, P b → Q (f b)) : Reports Q problems (outcome.map f) := by
  cases h with
  | ok hb => exact .ok (hf _ hb)
  | error first rest => exact .error first rest

/-- A property of the result that follows from another. -/
theorem imp {Q : β → Prop} (h : Reports P problems outcome) (hPQ : ∀ b, P b → Q b) :
    Reports Q problems outcome := by
  cases h with
  | ok hb => exact .ok (hPQ _ hb)
  | error first rest => exact .error first rest

/-- There is a result exactly when there is no problem. -/
theorem exists_ok_iff (h : Reports P problems outcome) :
    (∃ b, outcome = .ok b) ↔ problems = [] := by
  cases h with
  | ok hb => exact ⟨fun _ => rfl, fun _ => ⟨_, rfl⟩⟩
  | error first rest => exact ⟨nofun, nofun⟩

/-- The outcome is an error exactly when that is the first problem. -/
theorem eq_error_iff (h : Reports P problems outcome) (err : ε) :
    outcome = .error err ↔ problems.head? = some err := by
  cases h with
  | ok hb => exact ⟨nofun, nofun⟩
  | error first rest => rw [List.head?_cons, Except.error.injEq, Option.some.injEq]

/-- A result has the property. -/
theorem of_eq_ok (h : Reports P problems outcome) {b : β} (hb : outcome = .ok b) : P b := by
  cases h with
  | ok hb' => exact Except.ok.inj hb ▸ hb'
  | error first rest => exact nomatch hb

end Reports

/-! ### Two outcomes -/

/-- Where the first outcome is a result, so is the second, and the two are related. -/
def Refines (R : β → γ → Prop) (first : Except ε β) (second : Except ε γ) : Prop :=
  ∀ b, first = .ok b → ∃ c, second = .ok c ∧ R b c

namespace Refines

variable {R : β → γ → Prop} {first first' : Except ε β} {second second' : Except ε γ}

/-- An error is no result. -/
theorem error (err : ε) (second : Except ε γ) : Refines R (.error err) second := nofun

/-- Two results that are related. -/
theorem ok {b : β} {c : γ} (h : R b c) : Refines R (ε := ε) (.ok b) (.ok c) := by
  rintro _ ⟨⟩
  exact ⟨c, rfl, h⟩

/-- One outcome whose result is related to itself. -/
theorem refl {S : β → β → Prop} (h : ∀ b, first = .ok b → S b b) : Refines S first first :=
  fun b hb => ⟨b, hb, h b hb⟩

/-- A choice that both have in common. -/
theorem ite {c : Prop} [Decidable c] (h : c → Refines R first second)
    (h' : ¬c → Refines R first' second') :
    Refines R (if c then first else first') (if c then second else second') := by
  split
  · rename_i hc
    exact h hc
  · rename_i hc
    exact h' hc

/-- Two steps one after the other. -/
theorem bind {β' γ' : Type} {Q : β' → γ' → Prop} {next : β → Except ε β'} {next' : γ → Except ε γ'}
    (h : Refines R first second) (hnext : ∀ b c, R b c → Refines Q (next b) (next' c)) :
    Refines Q (first >>= next) (second >>= next') := by
  intro b' hb'
  obtain ⟨b, hb, hnextb⟩ := bind_eq_ok_iff.mp hb'
  obtain ⟨c, hc, hR⟩ := h b hb
  obtain ⟨c', hc', hQ⟩ := hnext b c hR b' hnextb
  exact ⟨c', bind_eq_ok_iff.mpr ⟨c, hc, hc'⟩, hQ⟩

end Refines

end DiagramScene
