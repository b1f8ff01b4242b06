import Bindery.Proofs.Footnote.Renumbered
import Bindery.Proofs.Html.Tidy

/-!
# Tidy markup stays tidy

Renumbering gives an element no name, no attribute and no place that it did not have,
and the markers that it writes are read as they are written.
-/

set_option autoImplicit false

namespace Bindery.Footnote

open Html (Element KeptValue Tidy TidyBody)

namespace Marker

theorem forall_mem_id {marker : Marker} :
    ∀ c ∈ marker.id.toList, c ∈ ['f', 'n', 'r'] ∨ c.isDigit = true := by
  obtain ⟨kind, number⟩ := marker
  have digits : ∀ c ∈ Nat.toDigits 10 number, c ∈ ['f', 'n', 'r'] ∨ c.isDigit = true :=
    fun c member => .inr (Nat.isDigit_of_mem_toDigits (by decide) (by decide) member)
  cases kind with
  | note => simpa [toList_id_note] using digits
  | reference => simpa [toList_id_reference] using digits

theorem keptValue_id (marker : Marker) : KeptValue marker.id where
  whole member := absurd (forall_mem_id _ member) (by decide)
  feeds member := absurd (forall_mem_id _ member) (by decide)

theorem keptValue_link (marker : Marker) : KeptValue marker.link where
  whole := by simp [link, marker.keptValue_id.whole]
  feeds := by simp [link, marker.keptValue_id.feeds]

end Marker

section Relabel

variable {numbers : Numbering} {item : Scoped}

theorem isKept_renumberId (kept : item.2.IsKept) : (numbers.renumberId item).IsKept := by
  unfold Numbering.renumberId
  split
  · next found =>
      obtain ⟨old, read, -⟩ := Option.bind_eq_some_iff.mp found
      have present := Element.exists_of_attribute? (ofElement?_eq_some_iff.mp read).2
      exact kept.setAttribute present (Marker.keptValue_id _)
  · exact kept

theorem isKept_renumberLink (kept : item.2.IsKept) : (numbers.renumberLink item).IsKept := by
  unfold Numbering.renumberLink
  split
  · next found =>
      obtain ⟨old, read, -⟩ := Option.bind_eq_some_iff.mp found
      have present := Element.exists_of_attribute? (linkOf?_eq_some_iff.mp read).2.2
      exact kept.setAttribute present (Marker.keptValue_link _)
  · exact kept

theorem isKept_relabel (kept : item.2.IsKept) : (numbers.relabel item).IsKept :=
  isKept_renumberLink (isKept_renumberId (kept.removeAttribute scopeAttribute))

theorem name_relabel (numbers : Numbering) (item : Scoped) :
    (numbers.relabel item).name = item.2.name :=
  (renumberLink_revalued numbers _ _).elementName.trans
    (renumberId_revalued numbers _ _).elementName

end Relabel

/-! ## The elements of a tree -/

theorem exists_scopes_element (scope last : Nat) (element : Element) (children : List Html.Node) :
    ∃ own latest, (scopes scope last (.element element children)).1 =
      .element (own, element) (scopesAll own latest children).1 := by
  unfold scopes
  split
  · exact ⟨last + 1, last + 1, rfl⟩
  · exact ⟨scope, last, rfl⟩

/-- Nodes with new numbers on them, of which the first is in the scope. -/
def relabelAll (numbers : Numbering) (scope last : Nat) (nodes : List Html.Node) :
    List Html.Node :=
  Html.Tree.mapAll numbers.relabel (scopesAll scope last nodes).1

theorem relabelAll_cons (numbers : Numbering) (scope last : Nat) (node : Html.Node)
    (nodes : List Html.Node) :
    relabelAll numbers scope last (node :: nodes) =
      (scopes scope last node).1.map numbers.relabel ::
        relabelAll numbers scope (scopes scope last node).2 nodes := rfl

theorem forall_mem_relabelAll {motive : Html.Node → Prop} {numbers : Numbering} {scope last : Nat}
    {nodes : List Html.Node}
    (each : ∀ node ∈ nodes, ∀ scope last, motive ((scopes scope last node).1.map numbers.relabel)) :
    ∀ node ∈ relabelAll numbers scope last nodes, motive node := by
  induction nodes generalizing last with
  | nil => exact List.forall_mem_nil _
  | cons node nodes ih =>
      obtain ⟨first, others⟩ := List.forall_mem_cons.mp each
      rw [relabelAll_cons]
      exact List.forall_mem_cons.mpr ⟨first scope last, ih others⟩

theorem isElement_relabel (numbers : Numbering) (scope last : Nat) (node : Html.Node) :
    ((scopes scope last node).1.map numbers.relabel).isElement = node.isElement := by
  cases node with
  | element element children =>
      obtain ⟨own, latest, labelled⟩ := exists_scopes_element scope last element children
      rw [labelled]
      rfl
  | text content => rfl
  | comment content => rfl

theorem map_isElement_relabelAll (numbers : Numbering) (scope last : Nat)
    (nodes : List Html.Node) :
    (relabelAll numbers scope last nodes).map Html.Tree.isElement =
      nodes.map Html.Tree.isElement := by
  induction nodes generalizing last with
  | nil => rfl
  | cons node nodes ih =>
      rw [relabelAll_cons, List.map_cons, List.map_cons, isElement_relabel, ih]

theorem tidy_relabel (numbers : Numbering) {path : List String} {node : Html.Node}
    (tidy : Tidy path node) (scope last : Nat) :
    Tidy path ((scopes scope last node).1.map numbers.relabel) := by
  -- Scopes are counted on from node to node, so it is shown for each scope and each count.
  induction tidy generalizing scope last with
  | text feeds => exact .text feeds
  | @empty path element kept empty =>
      obtain ⟨own, latest, labelled⟩ := exists_scopes_element scope last element []
      have named := name_relabel numbers (own, element)
      rw [labelled]
      exact .empty (isKept_relabel kept) (named ▸ empty)
  | @element path element children kept stands _ ih =>
      obtain ⟨own, latest, labelled⟩ := exists_scopes_element scope last element children
      have named := name_relabel numbers (own, element)
      rw [labelled]
      refine .element (isKept_relabel kept) (named ▸ stands) ?_
      rw [named]
      exact forall_mem_relabelAll ih

theorem tidyBody_relabelAll (numbers : Numbering) (scope last : Nat) {nodes : List Html.Node}
    (body : TidyBody nodes) : TidyBody (relabelAll numbers scope last nodes) := by
  have same := map_isElement_relabelAll numbers scope last nodes
  refine ⟨forall_mem_relabelAll fun node member => tidy_relabel numbers (body.tidy node member),
    ?first, ?last⟩
  case first =>
    have first := body.first
    rw [← Option.forall_mem_map (p := (· = true)), ← List.head?_map] at first ⊢
    rwa [same]
  case last =>
    have last := body.last
    rw [← Option.forall_mem_map (p := (· = true)), ← List.getLast?_map] at last ⊢
    rwa [same]

theorem exists_children_reconcileTree (start : Nat) (node : Html.Node) :
    ∃ numbers scope last,
      (reconcileTree start node).children = relabelAll numbers scope last node.children := by
  cases node with
  | element element children =>
      obtain ⟨own, latest, labelled⟩ := exists_scopes_element 0 0 element children
      refine ⟨numbering start (withScopes (.element element children)).labels, own, latest, ?_⟩
      rw [reconcileTree, withScopes, labelled]
      rfl
  | text content => exact ⟨[], 0, 0, rfl⟩
  | comment content => exact ⟨[], 0, 0, rfl⟩

/-- A tidy body stays one when its notes are renumbered. -/
theorem tidyBody_reconcileTree (start : Nat) {node : Html.Node} (body : TidyBody node.children) :
    TidyBody (reconcileTree start node).children := by
  obtain ⟨numbers, scope, last, renumbered⟩ := exists_children_reconcileTree start node
  rw [renumbered]
  exact tidyBody_relabelAll numbers scope last body

theorem children_reconcileTree_ne_nil (start : Nat) {node : Html.Node}
    (some : node.children ≠ []) : (reconcileTree start node).children ≠ [] := by
  obtain ⟨numbers, scope, last, renumbered⟩ := exists_children_reconcileTree start node
  have same := map_isElement_relabelAll numbers scope last node.children
  intro none
  rw [← renumbered, none, List.map_nil, eq_comm, List.map_eq_nil_iff] at same
  exact some same

end Bindery.Footnote
