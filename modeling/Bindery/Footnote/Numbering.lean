import Bindery.Footnote.Marker
import Bindery.Footnote.Scope

/-!
# Numbering the notes of a document

Each note gets the next number of the whole document, in the order in which the
notes stand. A note is known by its scope and its number there.
-/

set_option autoImplicit false

namespace Bindery.Footnote

/-- A scope and a number in it. -/
abbrev Key := Nat × Nat

def noteKey? (item : Scoped) : Option Key :=
  match Marker.ofElement? item.2 with
  | some ⟨.note, number⟩ => some (item.1, number)
  | _ => none

/-- The notes of a document, each once, in the order of their first ids. -/
def notes (items : List Scoped) : List Key := (items.filterMap noteKey?).eraseDups

/-- The notes and the numbers they get. -/
abbrev Numbering := List (Key × Nat)

/-- Numbers the notes from the given number on. -/
def numbering (start : Nat) (items : List Scoped) : Numbering := (notes items).zipIdx start

/-- The marker with its new number, if it is one of a numbered note. -/
def Numbering.renumber? (numbers : Numbering) (scope : Nat) (marker : Marker) : Option Marker :=
  (numbers.lookup (scope, marker.number)).map (⟨marker.kind, ·⟩)

/-- Whether an element is a link to a note or reference whose scope has no such note. -/
def Numbering.isDangling (numbers : Numbering) (item : Scoped) : Bool :=
  match Marker.linkOf? item.2 with
  | some marker => (numbers.renumber? item.1 marker).isNone
  | none => false

def Numbering.renumberId (numbers : Numbering) (item : Scoped) : Html.Element :=
  match (Marker.ofElement? item.2).bind (numbers.renumber? item.1) with
  | some marker => item.2.setAttribute "id" marker.id
  | none => item.2

def Numbering.renumberLink (numbers : Numbering) (item : Scoped) : Html.Element :=
  match (Marker.linkOf? item.2).bind (numbers.renumber? item.1) with
  | some marker => item.2.setAttribute "href" marker.link
  | none => item.2

/-- An element with its new numbers and without the mark of a scope. -/
def Numbering.relabel (numbers : Numbering) (item : Scoped) : Html.Element :=
  let plain := item.2.removeAttribute scopeAttribute
  numbers.renumberLink (item.1, numbers.renumberId (item.1, plain))

end Bindery.Footnote
