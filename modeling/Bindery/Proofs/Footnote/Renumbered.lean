import Bindery.Footnote.Reconcile
import Bindery.Proofs.Footnote.Note
import Bindery.Proofs.Html.Attribute

/-!
# What renumbering does to an element

Ids and links get the new number of the note of their scope, and keep their own
if the scope has no such note. The new numbers depend on the tree as it was, so
no number is changed twice.
-/

set_option autoImplicit false

namespace Bindery.Footnote

open Html (Place Element Attribute Revalued)

/-- Some element of the scope has the id of the note with the number. -/
def HasNote (node : Html.Node) (scope : Option Place) (number : Nat) : Prop :=
  ∃ definition, Defines node definition (scope, number)

/-- A number in a scope after the notes of the tree are counted from `start`. -/
def renewed (node : Html.Node) (start : Nat) (scope : Option Place) (number : Nat) : Nat :=
  if (scope, number) ∈ notesOf node then newNumber node start (scope, number) else number

def keptAttributes (element : Element) : List Attribute :=
  element.attributes.filter (·.name ≠ scopeAttribute)

/-- What renumbering makes of the element at a place. Only the first id and the first target of
a link have new values, and only the mark of a scope is gone. -/
structure Renumbered (node : Html.Node) (start : Nat) (place : Place) (before after : Element) :
    Prop where
  space : after.space = before.space
  name : after.name = before.name
  keys : after.attributes.map Attribute.key = (keptAttributes before).map Attribute.key
  others : ∀ index, index ≠ Attribute.position "id" (keptAttributes before) →
    index ≠ Attribute.position "href" (keptAttributes before) →
    after.attributes[index]? = (keptAttributes before)[index]?
  id : ∀ marker, Carries node place marker → HasNote node (scopeOf node place) marker.number →
    after.attribute? "id" =
      some (Marker.id ⟨marker.kind, newNumber node start (scopeOf node place, marker.number)⟩)
  idKept : (∀ marker, Carries node place marker →
      ¬ HasNote node (scopeOf node place) marker.number) →
    after.attribute? "id" = before.attribute? "id"
  href : ∀ marker, LinksTo node place marker → HasNote node (scopeOf node place) marker.number →
    after.attribute? "href" =
      some (Marker.link ⟨marker.kind, newNumber node start (scopeOf node place, marker.number)⟩)
  hrefKept : (∀ marker, LinksTo node place marker →
      ¬ HasNote node (scopeOf node place) marker.number) →
    after.attribute? "href" = before.attribute? "href"

theorem renewed_of_hasNote {node : Html.Node} {start : Nat} {scope : Option Place} {number : Nat}
    (present : HasNote node scope number) :
    renewed node start scope number = newNumber node start (scope, number) :=
  if_pos (mem_notesOf.mpr present)

theorem renewed_of_not_hasNote {node : Html.Node} {start : Nat} {scope : Option Place}
    {number : Nat} (missing : ¬ HasNote node scope number) :
    renewed node start scope number = number :=
  if_neg fun listed => missing (mem_notesOf.mp listed)

/-- A pass that looks a marker up and keeps what is not found gives the renewed number. -/
theorem getD_renumber?_withScopes (node : Html.Node) (start : Nat) (place : Place)
    (marker : Marker) :
    ((numbering start (withScopes node).labels).renumber? (scopeNumber node (scopeOf node place))
      marker).getD marker =
        ⟨marker.kind, renewed node start (scopeOf node place) marker.number⟩ := by
  rw [renumber?_withScopes, renewed]
  split <;> rfl

section Relabel

variable (numbers : Numbering) (scope : Nat) (element : Element)

theorem renumberId_revalued : Revalued "id" element (numbers.renumberId (scope, element)) := by
  unfold Numbering.renumberId
  split
  · next renewed found =>
      obtain ⟨marker, read, -⟩ := Option.bind_eq_some_iff.mp found
      exact Element.revalued_setAttribute _ (ofElement?_eq_some_iff.mp read).2
  · exact .refl "id" element

theorem renumberLink_revalued :
    Revalued "href" element (numbers.renumberLink (scope, element)) := by
  unfold Numbering.renumberLink
  split
  · next renewed found =>
      obtain ⟨marker, read, -⟩ := Option.bind_eq_some_iff.mp found
      exact Element.revalued_setAttribute _ (linkOf?_eq_some_iff.mp read).2.2
  · exact .refl "href" element

theorem attribute?_renumberId :
    (numbers.renumberId (scope, element)).attribute? "id" =
      match Marker.ofElement? element with
      | some marker => some ((numbers.renumber? scope marker).getD marker).id
      | none => element.attribute? "id" := by
  unfold Numbering.renumberId
  cases read : Marker.ofElement? element with
  | none => rfl
  | some marker =>
      cases found : numbers.renumber? scope marker with
      | none => simpa [found] using (ofElement?_eq_some_iff.mp read).2
      | some renewed => simp [found]

theorem attribute?_renumberLink :
    (numbers.renumberLink (scope, element)).attribute? "href" =
      match Marker.linkOf? element with
      | some marker => some ((numbers.renumber? scope marker).getD marker).link
      | none => element.attribute? "href" := by
  unfold Numbering.renumberLink
  cases read : Marker.linkOf? element with
  | none => rfl
  | some marker =>
      cases found : numbers.renumber? scope marker with
      | none => simpa [found] using (linkOf?_eq_some_iff.mp read).2.2
      | some renewed => simp [found]

theorem ofElement?_removeAttribute :
    Marker.ofElement? (element.removeAttribute scopeAttribute) = Marker.ofElement? element := by
  have different : "id" ≠ scopeAttribute := by decide
  rw [Marker.ofElement?, Marker.ofElement?, element.attribute?_removeAttribute_ne different]

/-- The id plays no part in where a link points to. -/
theorem linkOf?_renumberId :
    Marker.linkOf? (numbers.renumberId (scope, element)) = Marker.linkOf? element := by
  have revalued := renumberId_revalued numbers scope element
  have different : "href" ≠ "id" := by decide
  rw [Marker.linkOf?, Marker.linkOf?, revalued.elementName, revalued.values "href" different]

theorem linkOf?_removeAttribute :
    Marker.linkOf? (element.removeAttribute scopeAttribute) = Marker.linkOf? element := by
  have different : "href" ≠ scopeAttribute := by decide
  rw [Marker.linkOf?, Marker.linkOf?, Element.name_removeAttribute,
    element.attribute?_removeAttribute_ne different]

/-- The id is set first, and the link after it leaves it alone. -/
theorem attribute?_relabel_id :
    (numbers.relabel (scope, element)).attribute? "id" =
      match Marker.ofElement? element with
      | some marker => some ((numbers.renumber? scope marker).getD marker).id
      | none => element.attribute? "id" := by
  have linkStep := renumberLink_revalued numbers scope
    (numbers.renumberId (scope, element.removeAttribute scopeAttribute))
  rw [Numbering.relabel, linkStep.values "id" (by decide), attribute?_renumberId,
    ofElement?_removeAttribute, element.attribute?_removeAttribute_ne (by decide)]

theorem attribute?_relabel_href :
    (numbers.relabel (scope, element)).attribute? "href" =
      match Marker.linkOf? element with
      | some marker => some ((numbers.renumber? scope marker).getD marker).link
      | none => element.attribute? "href" := by
  have idStep := renumberId_revalued numbers scope (element.removeAttribute scopeAttribute)
  rw [Numbering.relabel, attribute?_renumberLink, linkOf?_renumberId,
    idStep.values "href" (by decide), linkOf?_removeAttribute,
    element.attribute?_removeAttribute_ne (by decide)]

/-- An element stays as it is if no marker in it gets another number. -/
theorem relabel_eq_self {numbers : Numbering} {scope : Nat} {element : Element}
    (unmarked : element.attribute? scopeAttribute = none)
    (same : ∀ marker renewed, numbers.renumber? scope marker = some renewed → renewed = marker) :
    numbers.relabel (scope, element) = element := by
  have idKept : numbers.renumberId (scope, element) = element := by
    unfold Numbering.renumberId
    split
    · next renewed found =>
        obtain ⟨marker, read, given⟩ := Option.bind_eq_some_iff.mp found
        rw [same marker renewed given]
        exact Element.setAttribute_eq_self (ofElement?_eq_some_iff.mp read).2
    · rfl
  have linkKept : numbers.renumberLink (scope, element) = element := by
    unfold Numbering.renumberLink
    split
    · next renewed found =>
        obtain ⟨marker, read, given⟩ := Option.bind_eq_some_iff.mp found
        rw [same marker renewed given]
        exact Element.setAttribute_eq_self (linkOf?_eq_some_iff.mp read).2.2
    · rfl
  rw [Numbering.relabel, Element.removeAttribute_eq_self unmarked, idKept, linkKept]

end Relabel

theorem relabel_renumbered (node : Html.Node) (start : Nat) {place : Place} {element : Element}
    (found : node.labelAt? place = some element) :
    Renumbered node start place element
      ((numbering start (withScopes node).labels).relabel
        (scopeNumber node (scopeOf node place), element)) := by
  have idStep := renumberId_revalued (numbering start (withScopes node).labels)
    (scopeNumber node (scopeOf node place)) (element.removeAttribute scopeAttribute)
  have linkStep := renumberLink_revalued (numbering start (withScopes node).labels)
    (scopeNumber node (scopeOf node place))
    (Numbering.renumberId (numbering start (withScopes node).labels)
      (scopeNumber node (scopeOf node place), element.removeAttribute scopeAttribute))
  have idAfter := attribute?_relabel_id (numbering start (withScopes node).labels)
    (scopeNumber node (scopeOf node place)) element
  have hrefAfter := attribute?_relabel_href (numbering start (withScopes node).labels)
    (scopeNumber node (scopeOf node place)) element
  simp only [getD_renumber?_withScopes] at idAfter hrefAfter
  have carried : ∀ marker, Carries node place marker ↔ Marker.ofElement? element = some marker := by
    simp [carries_iff, found]
  have linked : ∀ marker, LinksTo node place marker ↔ Marker.linkOf? element = some marker := by
    simp [linksTo_iff, found]
  constructor
  case space => exact linkStep.space.trans idStep.space
  case name => exact linkStep.elementName.trans idStep.elementName
  case keys => exact linkStep.keys.trans idStep.keys
  case others =>
    intro index notId notHref
    refine (linkStep.others index ?_).trans (idStep.others index notId)
    rwa [Element.position_congr "href" idStep.keys]
  case id =>
    intro marker carries present
    simp only [idAfter, (carried marker).mp carries, renewed_of_hasNote present]
  case idKept =>
    intro missing
    rw [idAfter]
    cases read : Marker.ofElement? element with
    | none => rfl
    | some marker =>
        simp only [(ofElement?_eq_some_iff.mp read).2,
          renewed_of_not_hasNote (missing marker ((carried marker).mpr read))]
  case href =>
    intro marker links present
    simp only [hrefAfter, (linked marker).mp links, renewed_of_hasNote present]
  case hrefKept =>
    intro missing
    rw [hrefAfter]
    cases read : Marker.linkOf? element with
    | none => rfl
    | some marker =>
        simp only [(linkOf?_eq_some_iff.mp read).2.2,
          renewed_of_not_hasNote (missing marker ((linked marker).mpr read))]

/-- Renumbering a tree is relabelling each element in its scope. -/
theorem reconcileTree_sameShape (start : Nat) (node : Html.Node) :
    Html.Tree.SameShape (Renumbered node start) node (reconcileTree start node) := by
  have plain : node = (withScopes node).map (·.2) := (scopes_map_snd 0 0 node).symm
  have related : ∀ place item, (withScopes node).labelAt? place = some item →
      Renumbered node start place item.2
        ((numbering start (withScopes node).labels).relabel item) := by
    intro place item found
    rw [labelAt?_withScopes] at found
    obtain ⟨element, selected, rfl⟩ := Option.map_eq_some_iff.mp found
    exact relabel_renumbered node start selected
  have same := Html.Tree.sameShape_map related
  rwa [← plain] at same

theorem renumbered_of_labelAt? {node : Html.Node} {start : Nat} {place : Place} {after : Element}
    (found : (reconcileTree start node).labelAt? place = some after) :
    ∃ before, node.labelAt? place = some before ∧ Renumbered node start place before after := by
  obtain ⟨before, selected⟩ := (reconcileTree_sameShape start node).labelAt?_left found
  exact ⟨before, selected, (reconcileTree_sameShape start node).related selected found⟩

theorem renumbered_of_labelAt?_before {node : Html.Node} (start : Nat) {place : Place}
    {before : Element} (found : node.labelAt? place = some before) :
    ∃ after, (reconcileTree start node).labelAt? place = some after ∧
      Renumbered node start place before after := by
  obtain ⟨after, selected⟩ := (reconcileTree_sameShape start node).labelAt?_right found
  exact ⟨after, selected, (reconcileTree_sameShape start node).related found selected⟩

theorem Renumbered.id_renewed {node : Html.Node} {start : Nat} {place : Place}
    {before after : Element} {marker : Marker}
    (renumbered : Renumbered node start place before after)
    (found : node.labelAt? place = some before) (carries : Carries node place marker) :
    after.attribute? "id" =
      some (Marker.id ⟨marker.kind, renewed node start (scopeOf node place) marker.number⟩) := by
  by_cases present : HasNote node (scopeOf node place) marker.number
  · rw [renumbered.id marker carries present, renewed_of_hasNote present]
  · have read := carries_iff.mp carries
    rw [found, Option.bind_some] at read
    rw [renewed_of_not_hasNote present, ← (ofElement?_eq_some_iff.mp read).2]
    refine renumbered.idKept fun other otherCarries => ?_
    obtain rfl := otherCarries.unique carries
    exact present

/-- The footnote ids of the renumbered tree are those of the tree with renewed numbers. -/
theorem carries_reconcileTree_iff {node : Html.Node} {start : Nat} {place : Place} {kind : Kind}
    {number : Nat} :
    Carries (reconcileTree start node) place ⟨kind, number⟩ ↔
      Marker.InRange ⟨kind, number⟩ ∧ ∃ old, Carries node place ⟨kind, old⟩ ∧
        renewed node start (scopeOf node place) old = number := by
  constructor
  · rintro ⟨valid, after, found, written⟩
    obtain ⟨before, selected, renumbered⟩ := renumbered_of_labelAt? found
    refine ⟨valid, ?_⟩
    cases read : Marker.ofElement? before with
    | some marker =>
        have carries : Carries node place marker := carries_iff.mpr (by rw [selected]; exact read)
        have same := (renumbered.id_renewed selected carries).symm.trans written
        obtain ⟨rfl, rfl⟩ := Marker.mk.inj (Marker.id_injective (Option.some.inj same))
        exact ⟨marker.number, carries, rfl⟩
    | none =>
        have unread : ∀ marker, ¬ Carries node place marker := by
          intro marker carries
          have other := carries_iff.mp carries
          rw [selected, Option.bind_some, read] at other
          cases other
        have kept := renumbered.idKept fun marker carries => absurd carries (unread marker)
        exact absurd ⟨valid, before, selected, kept.symm.trans written⟩ (unread ⟨kind, number⟩)
  · rintro ⟨valid, old, carries, rfl⟩
    obtain ⟨-, before, selected, -⟩ := id carries
    obtain ⟨after, found, renumbered⟩ := renumbered_of_labelAt?_before start selected
    exact ⟨valid, after, found, renumbered.id_renewed selected carries⟩

theorem Renumbered.unmarked {node : Html.Node} {start : Nat} {place : Place}
    {before after : Element} (renumbered : Renumbered node start place before after) :
    after.attribute? scopeAttribute = none := by
  rw [Element.attribute?_eq_none_iff]
  intro item member same
  have listed : item.key ∈ (keptAttributes before).map Attribute.key :=
    renumbered.keys ▸ List.mem_map_of_mem member
  obtain ⟨other, kept, sameKey⟩ := List.mem_map.mp listed
  have different : other.name ≠ scopeAttribute := by simpa using (List.mem_filter.mp kept).2
  exact different ((congrArg Prod.snd sameKey).trans same)

end Bindery.Footnote
