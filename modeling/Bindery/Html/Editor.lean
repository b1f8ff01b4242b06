import Bindery.Html.Construction.Document
import Bindery.Html.Writer

/-!
# Editing a fragment

An editor holds the body of a parsed text and the nodes that have been found or
made so far, each under the number it got. The body has number zero.
-/

set_option autoImplicit false

namespace Bindery.Html

structure Editor where
  arena : Arena
  /-- The node behind each number. -/
  nodes : Array Nat
  deriving Inhabited

namespace Editor

/-- The editor of a text, if the text has a body. -/
def ofText? (text : String) : Option Editor :=
  (parse? text).map fun parsed => ⟨parsed.arena, #[parsed.body]⟩

def node? (editor : Editor) (number : Nat) : Option Nat := editor.nodes[number]?

def number (editor : Editor) (node : Nat) : Editor × Nat :=
  ({ editor with nodes := editor.nodes.push node }, editor.nodes.size)

/-- Finds the first element at or below a node, in document order, that satisfies the test. -/
def find (editor : Editor) (node : Nat) (wanted : Element → Bool) : Editor × Option Nat :=
  match editor.arena.find? wanted node with
  | some found =>
      let (editor, number) := editor.number found
      (editor, some number)
  | none => (editor, none)

/-- Makes a node that stands nowhere. -/
def make (editor : Editor) (content : Content) : Editor × Nat :=
  let (arena, node) := editor.arena.add content
  { editor with arena := arena }.number node

def element? (editor : Editor) (node : Nat) : Option Element := editor.arena.element? node

def change (editor : Editor) (node : Nat) (edit : Element → Element) : Editor :=
  { editor with arena := editor.arena.changeElement node edit }

def append (editor : Editor) (node child : Nat) : Editor :=
  { editor with arena := editor.arena.append node child }

def prepend (editor : Editor) (node child : Nat) : Editor :=
  { editor with arena := editor.arena.prepend node child }

/-- Moves the children of one node behind those of another. -/
def adopt (editor : Editor) (node source : Nat) : Editor :=
  { editor with arena := editor.arena.moveChildren source node }

def text (editor : Editor) (node : Nat) : String :=
  ((editor.arena.tree? node).map Tree.textContent).getD ""

def inner (editor : Editor) (node : Nat) : String :=
  ((editor.arena.tree? node).map Tree.inner).getD ""

def outer (editor : Editor) (node : Nat) : String :=
  ((editor.arena.tree? node).map Tree.outer).getD ""

def html (editor : Editor) : String := editor.inner (editor.nodes[0]?.getD 0)

end Editor

end Bindery.Html
