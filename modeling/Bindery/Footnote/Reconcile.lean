import Bindery.Error
import Bindery.Footnote.Numbering
import Bindery.Html.Construction.Document
import Bindery.Html.Writer

/-!
# Renumbering the footnotes of a document

Ids and links of all parts change at once, so that no new number is
taken for an old one. A document with neither notes nor marks stays as it is.
-/

set_option autoImplicit false

namespace Bindery.Footnote

/-- The number that the next note of a book gets. Notes are counted from one. -/
structure Counter where
  next : Nat
  next_pos : 0 < next
  deriving Repr, DecidableEq

namespace Counter

def start : Counter := ⟨1, Nat.one_pos⟩

instance : Inhabited Counter := ⟨start⟩

def advance (counter : Counter) (count : Nat) : Counter :=
  ⟨counter.next + count, Nat.add_pos_left counter.next_pos count⟩

end Counter

/-- A document with its notes renumbered. -/
structure Reconciled where
  html : String
  /-- How many notes have been numbered. -/
  definitions : Nat
  /-- How many links point to a note that is not there. -/
  danglingLinks : Nat
  deriving Repr, DecidableEq, Inhabited

def reconcileTree (start : Nat) (node : Html.Node) : Html.Node :=
  let tree := withScopes node
  tree.map (numbering start tree.labels).relabel

/-- How many links of a tree point to a note that is not there. -/
def danglingLinks (start : Nat) (node : Html.Node) : Nat :=
  let items := (withScopes node).labels
  items.countP (numbering start items).isDangling

def definitions (node : Html.Node) : Nat := (notes (withScopes node).labels).length

/-- Whether there is nothing to renumber in a tree. -/
def isSettled (node : Html.Node) : Bool :=
  definitions node = 0 && !node.labels.any isMarked

def reconcile (html : String) (counter : Counter) : Except BookError (Reconciled × Counter) :=
  match Html.parseBody? html with
  | none => .error .noBody
  | some body =>
      let count := definitions body
      let output := if isSettled body then html else (reconcileTree counter.next body).inner
      .ok (⟨output, count, danglingLinks counter.next body⟩, counter.advance count)

def reconcileDocument (html : String) : Except BookError Reconciled :=
  (reconcile html .start).map (·.1)

end Bindery.Footnote
