import Bindery.Proofs.Footnote.Scope

/-!
# Tags of elements

The elements of a tree are listed with the numbers of their scopes. Read off the list, a number
says which element around another one, or that one itself, is the nearest to open a scope.
-/

set_option autoImplicit false

namespace Bindery.Footnote

open Html (Place)

/-- The element at `owner` is the nearest one that opens a scope, from the place upwards. -/
structure Nearest (node : Html.Node) (place owner : Place) : Prop where
  above : owner <+: place
  opening : opensAt node owner = true
  nearest : ∀ other, other <+: place → opensAt node other = true → other <+: owner

section

variable {node : Html.Node} {place owner other : Place}

theorem Nearest.unique (nearest : Nearest node place owner)
    (too : Nearest node place other) : owner = other :=
  (too.nearest owner nearest.above nearest.opening).eq_of_length_le
    (nearest.nearest other too.above too.opening).length_le

theorem scopeOf_eq_none_iff :
    scopeOf node place = none ↔ ∀ above, above <+: place → opensAt node above = false := by
  simp only [scopeOf, List.find?_eq_none, List.mem_reverse, List.mem_inits, Bool.not_eq_true]

/-- A place that opens a scope is nearest to itself. -/
theorem nearest_self (opening : opensAt node place = true) : Nearest node place place :=
  ⟨List.prefix_rfl, opening, fun _ above _ => above⟩

theorem Nearest.concat {index : Nat} (nearest : Nearest node place owner)
    (closed : opensAt node (place ++ [index]) = false) :
    Nearest node (place ++ [index]) owner := by
  refine ⟨nearest.above.trans (List.prefix_append _ _), nearest.opening, ?_⟩
  intro other above opening
  rcases List.prefix_concat_iff.mp above with rfl | above
  · rw [closed] at opening
    cases opening
  · exact nearest.nearest other above opening

theorem nearest_of_scopeOf (found : scopeOf node place = some owner) :
    Nearest node place owner := by
  induction place using List.reverseRecOn with
  | nil =>
      rw [scopeOf_nil] at found
      split at found
      · next opening =>
          cases found
          exact nearest_self opening
      · cases found
  | append_singleton place index ih =>
      rw [scopeOf_concat] at found
      split at found
      · next opening =>
          cases found
          exact nearest_self opening
      · next closed => exact (ih found).concat (by simpa using closed)

theorem scopeOf_eq_some_iff : scopeOf node place = some owner ↔ Nearest node place owner := by
  refine ⟨nearest_of_scopeOf, fun nearest => ?_⟩
  cases found : scopeOf node place with
  | none =>
      have closed := scopeOf_eq_none_iff.mp found owner nearest.above
      rw [nearest.opening] at closed
      cases closed
  | some scope => rw [(nearest_of_scopeOf found).unique nearest]

end

/-- What a list of elements with their places and tags says of the scopes of a tree. Each element
is listed once, in document order. The tag is zero outside of all scopes. Two elements share
another tag exactly if the same element is the nearest one that opens a scope. -/
structure TagsScopes (node : Html.Node) (items : List (Place × Scoped)) : Prop where
  ordered : items.Pairwise fun left right => left.1 < right.1
  elements : ∀ place element,
    (∃ tag, (place, tag, element) ∈ items) ↔ node.labelAt? place = some element
  outside : ∀ item ∈ items,
    item.2.1 = 0 ↔ ∀ above, above <+: item.1 → opensAt node above = false
  inside : ∀ left ∈ items, ∀ right ∈ items,
    (left.2.1 = right.2.1 ∧ left.2.1 ≠ 0) ↔
      ∃ owner, Nearest node left.1 owner ∧ Nearest node right.1 owner

theorem tag_of_mem_placed {node : Html.Node} {item : Place × Scoped}
    (member : item ∈ (withScopes node).placed) :
    item.2.1 = scopeNumber node (scopeOf node item.1) := by
  obtain ⟨place, tag, element⟩ := item
  have found := Html.Tree.mem_placed.mp member
  rw [labelAt?_withScopes, Option.map_eq_some_iff] at found
  obtain ⟨_, -, same⟩ := found
  exact (Prod.mk.inj same).1.symm

theorem opensAt_of_mem_scopeOf (node : Html.Node) (place : Place) :
    ∀ owner ∈ scopeOf node place, opensAt node owner = true :=
  fun _ found => opensAt_of_scopeOf found

/-- Only outside of all scopes the number of a scope is zero. -/
theorem scopeNumber_eq_zero_iff {node : Html.Node} {place : Place} :
    scopeNumber node (scopeOf node place) = 0 ↔ scopeOf node place = none := by
  have outer : ∀ owner ∈ (none : Option Place), opensAt node owner = true := nofun
  exact scopeNumber_inj (opensAt_of_mem_scopeOf node place) outer

/-- The list of all elements with the numbers of their scopes tells the scopes apart. -/
theorem labels_withScopes_tag (node : Html.Node) :
    ∃ items : List (Place × Scoped),
      items.map (·.2) = (withScopes node).labels ∧ TagsScopes node items := by
  refine ⟨(withScopes node).placed, Html.Tree.placed_map_snd _, ?_⟩
  constructor
  case ordered => exact Html.Tree.placed_sorted _
  case elements =>
    intro place element
    simp only [Html.Tree.mem_placed, labelAt?_withScopes, Option.map_eq_some_iff, Prod.mk.injEq]
    constructor
    · rintro ⟨_, _, found, -, rfl⟩
      exact found
    · intro found
      exact ⟨_, element, found, rfl, rfl⟩
  case outside =>
    intro item member
    rw [tag_of_mem_placed member, scopeNumber_eq_zero_iff, scopeOf_eq_none_iff]
  case inside =>
    intro left leftMember right rightMember
    rw [tag_of_mem_placed leftMember, tag_of_mem_placed rightMember,
      scopeNumber_inj (opensAt_of_mem_scopeOf node _) (opensAt_of_mem_scopeOf node _), ne_eq,
      scopeNumber_eq_zero_iff]
    simp only [← scopeOf_eq_some_iff]
    cases scopeOf node left.1 with
    | none => simp
    | some owner => simp [eq_comm]

end Bindery.Footnote
