import Bindery.Footnote.Numbering
import Bindery.Proofs.Distinct
import Bindery.Proofs.Footnote.Marker
import Bindery.Proofs.Footnote.Scope

/-!
# The notes of a tree

A note is known by its scope and its number there. The notes of a tree are listed
once each, in the order of their first ids, and numbered in that order.
-/

set_option autoImplicit false

namespace Bindery.Footnote

open Html (Place)

/-- The element at a place has the marker as its id. -/
def Carries (node : Html.Node) (place : Place) (marker : Marker) : Prop :=
  marker.InRange ∧
    ∃ element, node.labelAt? place = some element ∧ element.attribute? "id" = some marker.id

/-- The element at a place is a link to the marker. -/
def LinksTo (node : Html.Node) (place : Place) (marker : Marker) : Prop :=
  marker.InRange ∧
    ∃ element, node.labelAt? place = some element ∧ element.name = "a" ∧
      element.attribute? "href" = some marker.link

/-- A scope, if there is one, and a number in it. -/
abbrev Note := Option Place × Nat

/-- The element at a place has the id of the note. -/
def Defines (node : Html.Node) (place : Place) (note : Note) : Prop :=
  Carries node place ⟨.note, note.2⟩ ∧ scopeOf node place = note.1

/-- The note whose id the element at a place has. -/
def noteAt? (node : Html.Node) (place : Place) : Option Note :=
  match (node.labelAt? place).bind Marker.ofElement? with
  | some ⟨.note, number⟩ => some (scopeOf node place, number)
  | _ => none

/-- The notes of a tree, each once, in the order of their first ids. -/
def notesOf (node : Html.Node) : List Note :=
  (node.placed.filterMap fun item => noteAt? node item.1).eraseDups

/-- The number that a note gets when the notes of a tree are counted from `start`. -/
def newNumber (node : Html.Node) (start : Nat) (note : Note) : Nat :=
  start + (notesOf node).idxOf note

theorem ofElement?_eq_some_iff {element : Html.Element} {marker : Marker} :
    Marker.ofElement? element = some marker ↔
      marker.InRange ∧ element.attribute? "id" = some marker.id := by
  rw [Marker.ofElement?, Option.bind_eq_some_iff]
  constructor
  · rintro ⟨text, found, read⟩
    obtain ⟨valid, rfl⟩ := Marker.ofId?_eq_some_iff.mp read
    exact ⟨valid, found⟩
  · rintro ⟨valid, found⟩
    exact ⟨marker.id, found, Marker.ofId?_eq_some_iff.mpr ⟨valid, rfl⟩⟩

theorem linkOf?_eq_some_iff {element : Html.Element} {marker : Marker} :
    Marker.linkOf? element = some marker ↔
      marker.InRange ∧ element.name = "a" ∧ element.attribute? "href" = some marker.link := by
  unfold Marker.linkOf?
  split
  · next named =>
      rw [Option.bind_eq_some_iff]
      constructor
      · rintro ⟨text, found, read⟩
        obtain ⟨valid, rfl⟩ := Marker.ofLink?_eq_some_iff.mp read
        exact ⟨valid, named, found⟩
      · rintro ⟨valid, -, found⟩
        exact ⟨marker.link, found, Marker.ofLink?_eq_some_iff.mpr ⟨valid, rfl⟩⟩
  · next named => simp [named]

theorem carries_iff {node : Html.Node} {place : Place} {marker : Marker} :
    Carries node place marker ↔ (node.labelAt? place).bind Marker.ofElement? = some marker := by
  simp only [Carries, Option.bind_eq_some_iff, ofElement?_eq_some_iff]
  constructor
  · rintro ⟨valid, element, found, written⟩
    exact ⟨element, found, valid, written⟩
  · rintro ⟨element, found, valid, written⟩
    exact ⟨valid, element, found, written⟩

theorem linksTo_iff {node : Html.Node} {place : Place} {marker : Marker} :
    LinksTo node place marker ↔ (node.labelAt? place).bind Marker.linkOf? = some marker := by
  simp only [LinksTo, Option.bind_eq_some_iff, linkOf?_eq_some_iff]
  constructor
  · rintro ⟨valid, element, found, named, written⟩
    exact ⟨element, found, valid, named, written⟩
  · rintro ⟨element, found, valid, named, written⟩
    exact ⟨valid, element, found, named, written⟩

theorem Carries.unique {node : Html.Node} {place : Place} {left right : Marker}
    (carries : Carries node place left) (other : Carries node place right) : left = right :=
  Option.some.inj ((carries_iff.mp carries).symm.trans (carries_iff.mp other))

theorem LinksTo.unique {node : Html.Node} {place : Place} {left right : Marker}
    (links : LinksTo node place left) (other : LinksTo node place right) : left = right :=
  Option.some.inj ((linksTo_iff.mp links).symm.trans (linksTo_iff.mp other))

theorem noteAt?_eq_some_iff {node : Html.Node} {place : Place} {note : Note} :
    noteAt? node place = some note ↔ Defines node place note := by
  rw [Defines, carries_iff]
  unfold noteAt?
  obtain ⟨scope, number⟩ := note
  split
  · next other same => simp [same, and_comm]
  · next none =>
      simp only [reduceCtorEq, false_iff, not_and]
      intro same
      exact absurd same (none number)

theorem Defines.mem_placed {node : Html.Node} {place : Place} {note : Note}
    (defined : Defines node place note) : ∃ element, (place, element) ∈ node.placed := by
  obtain ⟨⟨-, element, found, -⟩, -⟩ := defined
  exact ⟨element, Html.Tree.mem_placed.mpr found⟩

theorem mem_notesOf {node : Html.Node} {note : Note} :
    note ∈ notesOf node ↔ ∃ place, Defines node place note := by
  simp only [notesOf, List.mem_eraseDups, List.mem_filterMap, noteAt?_eq_some_iff]
  constructor
  · rintro ⟨item, -, defined⟩
    exact ⟨item.1, defined⟩
  · rintro ⟨place, defined⟩
    obtain ⟨element, member⟩ := defined.mem_placed
    exact ⟨(place, element), member, defined⟩

/-- Of two notes, the one listed first has an id before all ids of the other. -/
theorem notesOf_ordered (node : Html.Node) :
    (notesOf node).Pairwise fun left right =>
      ∃ place, Defines node place left ∧ ∀ other, Defines node other right → place < other := by
  refine (Distinct.eraseDups_filterMap_ordered (fun item => noteAt? node item.1) node.placed
    node.placed_sorted).imp ?_
  rintro left right ⟨item, -, found, earlier⟩
  refine ⟨item.1, noteAt?_eq_some_iff.mp found, ?_⟩
  intro other defined
  obtain ⟨element, member⟩ := defined.mem_placed
  exact earlier (other, element) member (noteAt?_eq_some_iff.mpr defined)

theorem notesOf_nodup (node : Html.Node) : (notesOf node).Nodup := by
  refine (notesOf_ordered node).imp ?_
  rintro left right ⟨place, defined, earlier⟩ rfl
  exact lt_irrefl place (earlier place defined)

/-- The new numbers of the notes are those from `start` on, one for each. -/
theorem newNumber_eq_iff {node : Html.Node} {start index : Nat} {note : Note}
    (listed : note ∈ notesOf node) :
    newNumber node start note = start + index ↔ (notesOf node)[index]? = some note := by
  rw [newNumber, Nat.add_left_cancel_iff]
  constructor
  · rintro rfl
    rw [List.getElem?_eq_getElem (List.idxOf_lt_length_of_mem listed), List.getElem_idxOf]
  · intro found
    obtain ⟨inside, rfl⟩ := List.getElem?_eq_some_iff.mp found
    exact (notesOf_nodup node).idxOf_getElem index inside

theorem newNumber_bounds {node : Html.Node} (start : Nat) {note : Note}
    (listed : note ∈ notesOf node) :
    start ≤ newNumber node start note ∧
      newNumber node start note < start + (notesOf node).length :=
  ⟨Nat.le_add_right _ _, Nat.add_lt_add_left (List.idxOf_lt_length_of_mem listed) start⟩

theorem newNumber_injective {node : Html.Node} {start : Nat} {left right : Note}
    (listed : left ∈ notesOf node)
    (same : newNumber node start left = newNumber node start right) : left = right :=
  (List.idxOf_inj listed).mp (Nat.add_left_cancel same)

/-- The key of a note in the numbering: its scope's number takes the scope's place. -/
def noteKey (node : Html.Node) (note : Note) : Key := (scopeNumber node note.1, note.2)

theorem noteKey_inj {node : Html.Node} {left right : Note}
    (leftOpening : ∀ place ∈ left.1, opensAt node place = true)
    (rightOpening : ∀ place ∈ right.1, opensAt node place = true) :
    noteKey node left = noteKey node right ↔ left = right := by
  rw [noteKey, noteKey, Prod.mk.injEq, scopeNumber_inj leftOpening rightOpening, ← Prod.ext_iff]

theorem opensAt_of_mem_notesOf {node : Html.Node} {note : Note} (listed : note ∈ notesOf node) :
    ∀ place ∈ note.1, opensAt node place = true := by
  obtain ⟨definition, -, same⟩ := mem_notesOf.mp listed
  intro place member
  exact opensAt_of_scopeOf (same.trans member)

/-- The pass over a tree with scope numbers finds the notes of the tree. -/
theorem notes_withScopes (node : Html.Node) :
    notes (withScopes node).labels = (notesOf node).map (noteKey node) := by
  have read : ∀ item ∈ node.placed,
      noteKey? (scopeNumber node (scopeOf node item.1), item.2) =
        (noteAt? node item.1).map (noteKey node) := by
    intro item member
    unfold noteKey? noteAt?
    rw [Html.Tree.mem_placed.mp member, Option.bind_some]
    cases Marker.ofElement? item.2 with
    | none => rfl
    | some marker =>
        obtain ⟨kind, number⟩ := marker
        cases kind <;> rfl
  calc
    notes (withScopes node).labels
      = (node.placed.filterMap fun item =>
          noteKey? (scopeNumber node (scopeOf node item.1), item.2)).eraseDups := by
        rw [notes, ← Html.Tree.placed_map_snd, placed_withScopes, List.map_map,
          List.filterMap_map]
        rfl
    _ = ((node.placed.filterMap fun item => noteAt? node item.1).map (noteKey node)).eraseDups := by
        rw [List.filterMap_congr read, ← List.map_filterMap]
    _ = (notesOf node).map (noteKey node) := by
        refine Distinct.eraseDups_map _ _ ?_
        intro left leftMember right rightMember same
        have leftListed : left ∈ notesOf node := List.mem_eraseDups.mpr leftMember
        have rightListed : right ∈ notesOf node := List.mem_eraseDups.mpr rightMember
        exact (noteKey_inj (opensAt_of_mem_notesOf leftListed)
          (opensAt_of_mem_notesOf rightListed)).mp same

/-- A marker gets the new number of the note of its scope, if there is one. -/
theorem renumber?_withScopes (node : Html.Node) (start : Nat) (place : Place) (marker : Marker) :
    (numbering start (withScopes node).labels).renumber? (scopeNumber node (scopeOf node place))
        marker =
      if (scopeOf node place, marker.number) ∈ notesOf node then
        some ⟨marker.kind, newNumber node start (scopeOf node place, marker.number)⟩
      else none := by
  have opening : ∀ owner ∈ scopeOf node place, opensAt node owner = true :=
    fun owner found => opensAt_of_scopeOf found
  have injective : ∀ other ∈ notesOf node,
      noteKey node other = noteKey node (scopeOf node place, marker.number) →
        other = (scopeOf node place, marker.number) := fun other listed same =>
    (noteKey_inj (opensAt_of_mem_notesOf listed) opening).mp same
  have member : noteKey node (scopeOf node place, marker.number) ∈
      (notesOf node).map (noteKey node) ↔ (scopeOf node place, marker.number) ∈ notesOf node := by
    constructor
    · intro found
      obtain ⟨other, listed, same⟩ := List.mem_map.mp found
      exact injective other listed same ▸ listed
    · exact List.mem_map_of_mem
  change (((notes (withScopes node).labels).zipIdx start).lookup
    (noteKey node (scopeOf node place, marker.number))).map _ = _
  rw [notes_withScopes, Distinct.lookup_zipIdx, Distinct.idxOf_map _ _ _ injective]
  by_cases listed : (scopeOf node place, marker.number) ∈ notesOf node
  · rw [if_pos (member.mpr listed), if_pos listed]
    rfl
  · rw [if_neg (listed ∘ member.mp), if_neg listed]
    rfl

end Bindery.Footnote
