import Mathlib
import DiagramScene.Scene.Basic

/-!
# Linked elements

A text that belongs to a container comes after it, and the container lists it.  `Linked` says so of
a list of elements, by the elements that stand before each text.  The checks go through a list once,
but look for containers in the whole of it.  That makes no difference where ids are pairwise
distinct (`anchored_iff`), and where they are not, that alone is an issue.

The main statement is `linkIssues_eq_nil_iff`: the checks find nothing exactly when there is nothing
to find.  They count a text among the elements before it, so they allow a little more than `Linked`
does.
-/

namespace DiagramScene.Element

variable {α : Type}

/-- Among the elements before it, an element has the container that it names, and that lists it. -/
def Anchored (before : List (Element α)) (e : Element α) : Prop :=
  ∀ c, e.containerId? = some c → ∃ owner ∈ before, owner.id = c ∧ owner.lists e.id = true

/-- Every element of a list comes after the container that it names, and that lists it. -/
def Linked (elements : List (Element α)) : Prop :=
  ∀ before e, before ++ [e] <+: elements → Anchored before e

/-- There is nothing to link in an empty list. -/
theorem linked_nil : Linked ([] : List (Element α)) := by
  intro before e h
  exact absurd (List.prefix_nil.mp h) (by simp)

/-- A linked list stays linked with one more element that has its container in it. -/
theorem Linked.concat {elements : List (Element α)} {e : Element α} (h : Linked elements)
    (he : Anchored elements e) : Linked (elements ++ [e]) := by
  intro before e' hp
  rcases List.prefix_concat_iff.mp hp with heq | hp
  · obtain ⟨rfl, rfl⟩ := List.append_singleton_inj.mp heq
    exact he
  · exact h before e' hp

/-- The beginning of a linked list is linked. -/
theorem Linked.of_prefix {elements elements' : List (Element α)} (h : Linked elements')
    (hp : elements <+: elements') : Linked elements :=
  fun before e hbefore => h before e (hbefore.trans hp)

/-- The last element of a linked list has its container among the others. -/
theorem Linked.anchored_last {elements : List (Element α)} {e : Element α}
    (h : Linked (elements ++ [e])) : Anchored elements e :=
  h elements e List.prefix_rfl

/-! ### Link issues -/

/-- Where ids are pairwise distinct, the last element with the id of an element is that element. -/
theorem withId?_eq_some {elements : List (Element α)} (hnodup : (elements.map (·.id)).Nodup)
    {e : Element α} (he : e ∈ elements) : withId? elements e.id = some e := by
  have hsome : (elements.reverse.find? (·.id == e.id)).isSome = true :=
    List.find?_isSome.mpr ⟨e, List.mem_reverse.mpr he, beq_self_eq_true e.id⟩
  obtain ⟨e', he'⟩ := Option.isSome_iff_exists.mp hsome
  have hmem : e' ∈ elements := List.mem_reverse.mp (List.mem_of_find?_eq_some he')
  have hid : e'.id = e.id := by simpa using List.find?_some he'
  rw [withId?, he', List.inj_on_of_nodup_map hnodup hmem he hid]

/-- An element has no issues after elements with the given ids exactly when its id is new, the id of
its container is among these or its own, and the container lists it. -/
theorem issuesOf_eq_nil_iff {all : List (Element α)} {seen : List String} {e : Element α} :
    issuesOf all seen e = [] ↔ e.id ∉ seen ∧ ∀ c, e.containerId? = some c →
      c ∈ e.id :: seen ∧ ∃ owner, withId? all c = some owner ∧ owner.lists e.id = true := by
  unfold issuesOf
  cases e.containerId? with
  | none => simp
  | some c => simp [Option.any_eq_true, or_iff_not_imp_left]

/-- The issues of elements behind others are found after the ids of those. -/
theorem issuesFrom_append (all : List (Element α)) (seen : List String)
    (es es' : List (Element α)) :
    issuesFrom all seen (es ++ es') =
      issuesFrom all seen es ++ issuesFrom all ((es.map (·.id)).reverse ++ seen) es' := by
  induction es generalizing seen with
  | nil => rfl
  | cons e es ih => simp [issuesFrom, ih]

/-- Elements have no issues exactly when their ids are pairwise distinct and the container of each
text is found by an id that stands no later than the text, and lists it. -/
theorem issuesFrom_eq_nil_iff (all es : List (Element α)) :
    issuesFrom all [] es = [] ↔ (es.map (·.id)).Nodup ∧
      ∀ before e, before ++ [e] <+: es → ∀ c, e.containerId? = some c →
        c ∈ (before ++ [e]).map (·.id) ∧
          ∃ owner, withId? all c = some owner ∧ owner.lists e.id = true := by
  induction es using List.reverseRecOn with
  | nil => simp [issuesFrom]
  | append_singleton es e ih =>
    have hlast : issuesFrom all ((es.map (·.id)).reverse ++ []) [e] = [] ↔
        e.id ∉ es.map (·.id) ∧ ∀ c, e.containerId? = some c → c ∈ (es ++ [e]).map (·.id) ∧
          ∃ owner, withId? all c = some owner ∧ owner.lists e.id = true := by
      simp [issuesFrom, issuesOf_eq_nil_iff, or_comm]
    have hdistinct : ((es ++ [e]).map (·.id)).Nodup ↔
        (es.map (·.id)).Nodup ∧ e.id ∉ es.map (·.id) := by
      rw [List.map_append, List.map_singleton, ← List.concat_eq_append, List.nodup_concat,
        and_comm]
    rw [issuesFrom_append, List.append_eq_nil_iff, ih, hlast, hdistinct]
    constructor
    · rintro ⟨⟨hnodup, hbefore⟩, hnew, howner⟩
      refine ⟨⟨hnodup, hnew⟩, fun before e' hbegins => ?_⟩
      rcases List.prefix_concat_iff.mp hbegins with heq | hbegins
      · obtain ⟨rfl, rfl⟩ := List.append_singleton_inj.mp heq
        exact howner
      · exact hbefore before e' hbegins
    · rintro ⟨⟨hnodup, hnew⟩, hall⟩
      refine ⟨⟨hnodup, fun before e' hbegins => ?_⟩, hnew, ?_⟩
      · exact hall before e' (hbegins.trans (List.prefix_append es [e]))
      · exact hall es e List.prefix_rfl

/-- Where ids are pairwise distinct, the element that is found by the id of a container is the one
that stands before the text. -/
theorem anchored_iff {elements before : List (Element α)}
    (hnodup : (elements.map (·.id)).Nodup) (hbefore : before ⊆ elements) {e : Element α} :
    Anchored before e ↔ ∀ c, e.containerId? = some c → c ∈ before.map (·.id) ∧
      ∃ owner, withId? elements c = some owner ∧ owner.lists e.id = true := by
  refine forall₂_congr fun c _ => ⟨?_, ?_⟩
  · rintro ⟨owner, howner, rfl, hlists⟩
    exact ⟨List.mem_map_of_mem howner, owner, withId?_eq_some hnodup (hbefore howner), hlists⟩
  · rintro ⟨hmem, owner, hfound, hlists⟩
    obtain ⟨owner', howner', rfl⟩ := List.mem_map.mp hmem
    have hsame := withId?_eq_some hnodup (hbefore howner')
    rw [hfound] at hsame
    obtain rfl := Option.some.inj hsame
    exact ⟨owner, howner', rfl, hlists⟩

/-- Elements have no link issues exactly when their ids are pairwise distinct and every element has
the container that it names before it, or is that container, and is listed by it. -/
theorem linkIssues_eq_nil_iff_anchored (elements : List (Element α)) :
    linkIssues elements = [] ↔ (elements.map (·.id)).Nodup ∧
      ∀ before e, before ++ [e] <+: elements → Anchored (before ++ [e]) e := by
  rw [linkIssues, issuesFrom_eq_nil_iff]
  refine and_congr_right fun hnodup => forall₃_congr fun before e hbegins => ?_
  exact (anchored_iff hnodup hbegins.subset).symm

/-- Linked elements with pairwise distinct ids have no link issues. -/
theorem linkIssues_eq_nil {elements : List (Element α)} (hnodup : (elements.map (·.id)).Nodup)
    (hlinked : Linked elements) : linkIssues elements = [] := by
  refine (linkIssues_eq_nil_iff_anchored elements).mpr ⟨hnodup, fun before e hbegins c hc => ?_⟩
  obtain ⟨owner, howner, hid, hlists⟩ := hlinked before e hbegins c hc
  exact ⟨owner, List.mem_append_left _ howner, hid, hlists⟩

/-- The elements up to one of a list are those at its place and before. -/
theorem mem_concat_iff {elements before : List (Element α)} {e owner : Element α}
    (hbegins : before ++ [e] <+: elements) :
    owner ∈ before ++ [e] ↔ ∃ j, j ≤ before.length ∧ elements[j]? = some owner := by
  obtain ⟨rest, rfl⟩ := hbegins
  have hlength : (before ++ [e]).length = before.length + 1 := by simp
  rw [List.mem_iff_getElem?]
  constructor
  · rintro ⟨j, hj⟩
    have hlt : j < (before ++ [e]).length := (List.getElem?_eq_some_iff.mp hj).1
    exact ⟨j, by omega, by rwa [List.getElem?_append_left hlt]⟩
  · rintro ⟨j, hle, hj⟩
    have hlt : j < (before ++ [e]).length := by omega
    exact ⟨j, by rwa [List.getElem?_append_left hlt] at hj⟩

/-- An element names a container exactly when it is a text with a container. -/
theorem containerId?_eq_some_iff {e : Element α} {c : String} :
    e.containerId? = some c ↔ ∃ content, e.kind = .text content ∧ content.containerId = some c := by
  unfold containerId?
  cases e.kind <;> simp [ElementKind.text?]

/-- An element lists an id exactly when something that is attached to it has the id. -/
theorem lists_iff {e : Element α} {id : String} :
    e.lists id = true ↔ ∃ b ∈ e.boundElements.getD [], b.id = id := by
  simp [lists, boundIds, bound]

/-- The faults in what ties elements together are reported exactly when there are any: there is no
report if and only if the ids of the elements are pairwise distinct and for every text that names a
container, an element with that id stands no later in the list than the text, which may be that
element itself, and lists the id of the text. -/
theorem linkIssues_eq_nil_iff (elements : List (Element α)) :
    linkIssues elements = [] ↔ (elements.map (·.id)).Nodup ∧
      ∀ (i : Nat) (e : Element α) (content : TextContent α) (c : String),
        elements[i]? = some e → e.kind = .text content → content.containerId = some c →
          ∃ (j : Nat) (owner : Element α), j ≤ i ∧ elements[j]? = some owner ∧ owner.id = c ∧
            ∃ b ∈ owner.boundElements.getD [], b.id = e.id := by
  rw [linkIssues_eq_nil_iff_anchored]
  refine and_congr_right fun _ => ⟨fun hanchored i e content c hi hkind hc => ?_, ?_⟩
  · have hbegins : elements.take i ++ [e] <+: elements := by
      have htake : elements.take (i + 1) = elements.take i ++ [e] := by
        rw [List.take_add_one, hi]
        rfl
      exact htake ▸ List.take_prefix (i + 1) elements
    have hname : e.containerId? = some c := containerId?_eq_some_iff.mpr ⟨content, hkind, hc⟩
    obtain ⟨owner, howner, hid, hlists⟩ := hanchored _ e hbegins c hname
    obtain ⟨j, hj, hplace⟩ := (mem_concat_iff hbegins).mp howner
    have hle : j ≤ i := hj.trans (List.length_take_le i elements)
    exact ⟨j, owner, hle, hplace, hid, lists_iff.mp hlists⟩
  · intro htexts before e hbegins c hname
    obtain ⟨content, hkind, hc⟩ := containerId?_eq_some_iff.mp hname
    have hplace : elements[before.length]? = some e := by
      obtain ⟨rest, rfl⟩ := hbegins
      simp
    obtain ⟨j, owner, hj, howner, hid, hlists⟩ := htexts _ e content c hplace hkind hc
    exact ⟨owner, (mem_concat_iff hbegins).mpr ⟨j, hj, howner⟩, hid, lists_iff.mpr hlists⟩

/-- A text may be its own container. -/
example : linkIssues [{ ofKind (.text { TextContent.empty with containerId := some "t" }) with
    id := "t", boundElements := some [⟨"t", .text⟩] : Element Float }] = [] := by decide

end DiagramScene.Element
