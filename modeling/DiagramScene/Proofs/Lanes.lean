import Mathlib

/-!
# Lanes

Items that are worked off one after the other run on lanes.  Where steps on different lanes can be
swapped, a run depends on the order of the items on each single lane and not on how the lanes are
interleaved (`Swappable.rel_foldlM`).

A step may refuse, and then the whole run does.  Two runs are compared by `Option.Rel`: both refuse,
or both end in states that are related.
-/

namespace Option.Rel

variable {α β : Type} {r : α → α → Prop}

/-- Outcomes are compared by an equivalence if their values are. -/
theorem equivalence (hr : Equivalence r) : Equivalence (Option.Rel r) where
  refl o := by
    cases o with
    | none => exact .none
    | some a => exact .some (hr.refl a)
  symm h := by
    cases h with
    | none => exact .none
    | some hab => exact .some (hr.symm hab)
  trans h h' := by
    cases h with
    | none => exact h'
    | some hab =>
      cases h' with
      | some hbc => exact .some (hr.trans hab hbc)

/-- Related outcomes go on to related ones. -/
theorem bind {s : β → β → Prop} {o p : Option α} {f g : α → Option β} (h : Option.Rel r o p)
    (hfg : ∀ a b, r a b → Option.Rel s (f a) (g b)) : Option.Rel s (o >>= f) (p >>= g) := by
  cases h with
  | none => exact .none
  | some hab => exact hfg _ _ hab

end Option.Rel

namespace DiagramScene

variable {ι κ σ : Type}

/-- Two lists have the same items on each lane, in the same order. -/
def SameLanes [DecidableEq κ] (lane : ι → κ) (xs ys : List ι) : Prop :=
  ∀ k, xs.filter (lane · = k) = ys.filter (lane · = k)

/-- Only an empty list has nothing on any lane. -/
theorem SameLanes.eq_nil [DecidableEq κ] {lane : ι → κ} {ys : List ι}
    (h : SameLanes lane [] ys) : ys = [] := by
  cases ys with
  | nil => rfl
  | cons y ys =>
    have hlane : [] = (y :: ys).filter (lane · = lane y) := h (lane y)
    rw [List.filter_cons_of_pos (by simp)] at hlane
    exact absurd hlane.symm (List.cons_ne_nil _ _)

/-- The first item of a list stands first on its lane in another list with the same lanes, and
without it the lanes are still the same. -/
theorem SameLanes.exists_eq_append [DecidableEq κ] {lane : ι → κ} {x : ι} {xs ys : List ι}
    (h : SameLanes lane (x :: xs) ys) :
    ∃ as bs, ys = as ++ x :: bs ∧ (∀ a ∈ as, lane a ≠ lane x) ∧ SameLanes lane xs (as ++ bs) := by
  have hfirst : ys.filter (lane · = lane x) = x :: xs.filter (lane · = lane x) := by
    rw [← h (lane x), List.filter_cons_of_pos (by simp)]
  obtain ⟨as, bs, rfl, has, -, -⟩ := List.filter_eq_cons_iff.mp hfirst
  have hother : ∀ a ∈ as, lane a ≠ lane x := fun a ha => by simpa using has a ha
  refine ⟨as, bs, rfl, hother, fun k => ?_⟩
  have hk := h k
  rw [List.filter_append] at hk ⊢
  by_cases hx : lane x = k
  · -- On the lane of the first item there is nothing before it.
    have hnone : as.filter (lane · = k) = [] := by
      apply List.filter_eq_nil_iff.mpr
      intro a ha
      simpa [hx] using hother a ha
    rw [hnone, List.nil_append] at hk ⊢
    rw [List.filter_cons_of_pos (by simpa using hx),
      List.filter_cons_of_pos (by simpa using hx)] at hk
    exact (List.cons.inj hk).2
  · rwa [List.filter_cons_of_neg (by simpa using hx),
      List.filter_cons_of_neg (by simpa using hx)] at hk

/-- Steps on different lanes can be swapped: what comes out is the same up to an equivalence, which
each step respects. -/
structure Swappable (lane : ι → κ) (step : σ → ι → Option σ) (r : σ → σ → Prop) : Prop where
  equivalence : Equivalence r
  respects : ∀ s t x, r s t → Option.Rel r (step s x) (step t x)
  swap : ∀ s x y, lane x ≠ lane y →
    Option.Rel r (step s x >>= (step · y)) (step s y >>= (step · x))

namespace Swappable

variable {lane : ι → κ} {step : σ → ι → Option σ} {r : σ → σ → Prop}

/-- A run respects the equivalence as its steps do. -/
theorem foldlM_respects (h : Swappable lane step r) (xs : List ι) (s t : σ) (hst : r s t) :
    Option.Rel r (xs.foldlM step s) (xs.foldlM step t) := by
  induction xs generalizing s t with
  | nil => exact .some hst
  | cons x xs ih => exact (h.respects s t x hst).bind ih

/-- An item can be worked off before items of other lanes. -/
theorem foldlM_append_cons (h : Swappable lane step r) {x : ι} {as : List ι}
    (has : ∀ a ∈ as, lane a ≠ lane x) (bs : List ι) (s : σ) :
    Option.Rel r ((as ++ x :: bs).foldlM step s) ((x :: (as ++ bs)).foldlM step s) := by
  have houtcome := Option.Rel.equivalence h.equivalence
  induction as generalizing s with
  | nil => exact houtcome.refl _
  | cons a as ih =>
    rw [List.forall_mem_cons] at has
    have hrest : Option.Rel r ((a :: (as ++ x :: bs)).foldlM step s)
        ((a :: x :: (as ++ bs)).foldlM step s) := by
      apply (houtcome.refl (step s a)).bind
      intro t u htu
      exact houtcome.trans (ih has.2 t) (h.foldlM_respects _ t u htu)
    have hswap : Option.Rel r ((a :: x :: (as ++ bs)).foldlM step s)
        ((x :: a :: (as ++ bs)).foldlM step s) := by
      have hpair := (h.swap s a x has.1).bind (h.foldlM_respects (as ++ bs))
      simpa only [List.foldlM_cons, bind_assoc] using hpair
    exact houtcome.trans hrest hswap

/-- Two runs over lists with the same lanes have the same outcome, up to the equivalence. -/
theorem rel_foldlM [DecidableEq κ] (h : Swappable lane step r) {xs ys : List ι}
    (hlanes : SameLanes lane xs ys) (s : σ) :
    Option.Rel r (xs.foldlM step s) (ys.foldlM step s) := by
  have houtcome := Option.Rel.equivalence h.equivalence
  induction xs generalizing ys s with
  | nil =>
    rw [hlanes.eq_nil]
    exact houtcome.refl _
  | cons x xs ih =>
    obtain ⟨as, bs, rfl, has, hrest⟩ := hlanes.exists_eq_append
    have hfirst : Option.Rel r ((x :: xs).foldlM step s) ((x :: (as ++ bs)).foldlM step s) := by
      apply (houtcome.refl (step s x)).bind
      intro t u htu
      exact houtcome.trans (ih hrest t) (h.foldlM_respects _ t u htu)
    exact houtcome.trans hfirst (houtcome.symm (h.foldlM_append_cons has bs s))

end Swappable

end DiagramScene
