import Bindery.Html.Element

/-!
# Nodes by number

While a document is being built or edited, nodes are numbered and refer to each
other by number. A finished node is read off as a tree.
-/

set_option autoImplicit false

namespace Bindery.Html

inductive Content where
  /-- Holds other nodes and is none itself: the document, or the inside of a template. -/
  | holder
  | element (tag : Element)
  | text (content : String)
  | comment (content : String)
  deriving Repr, Inhabited

structure Slot where
  content : Content
  parent : Option Nat
  children : Array Nat
  /-- The holder of what a template contains; it is not a child. -/
  inside : Option Nat
  deriving Repr, Inhabited

structure Arena where
  slots : Array Slot
  deriving Repr, Inhabited

namespace Arena

def empty : Arena := ⟨#[]⟩

def slot? (arena : Arena) (node : Nat) : Option Slot := arena.slots[node]?

def change (arena : Arena) (node : Nat) (edit : Slot → Slot) : Arena :=
  ⟨arena.slots.modify node edit⟩

def add (arena : Arena) (content : Content) : Arena × Nat :=
  (⟨arena.slots.push ⟨content, none, #[], none⟩⟩, arena.slots.size)

/-- An element without a name stands for any node that is no element. -/
def noElement : Element := ⟨.html, "", []⟩

def element? (arena : Arena) (node : Nat) : Option Element :=
  match arena.slot? node with
  | some ⟨.element tag, _, _, _⟩ => some tag
  | _ => none

def element (arena : Arena) (node : Nat) : Element := (arena.element? node).getD noElement

def children (arena : Arena) (node : Nat) : Array Nat :=
  match arena.slot? node with
  | some slot => slot.children
  | none => #[]

def parent? (arena : Arena) (node : Nat) : Option Nat := (arena.slot? node).bind (·.parent)

/-- Adds an element; a template gets a holder for what it contains. -/
def addElement (arena : Arena) (tag : Element) : Arena × Nat :=
  let (arena, node) := arena.add (.element tag)
  if tag.isHtml "template" then
    let (arena, holder) := arena.add .holder
    (arena.change node ({ · with inside := some holder }), node)
  else (arena, node)

def setParent (arena : Arena) (node : Nat) (parent : Option Nat) : Arena :=
  arena.change node ({ · with parent := parent })

/-- Makes a node the last child of another. Its earlier parent keeps it too. -/
def append (arena : Arena) (parent node : Nat) : Arena :=
  (arena.setParent node (some parent)).change parent fun slot =>
    { slot with children := slot.children.push node }

/-- Makes a node the first child of another. Its earlier parent keeps it too. -/
def prepend (arena : Arena) (parent node : Nat) : Arena :=
  (arena.setParent node (some parent)).change parent fun slot =>
    { slot with children := #[node] ++ slot.children }

def detach (arena : Arena) (node : Nat) : Arena :=
  match arena.parent? node with
  | none => arena
  | some parent =>
      (arena.setParent node none).change parent fun slot =>
        { slot with children := slot.children.filter (· != node) }

/-- Moves every child of one node behind the children of another. -/
def moveChildren (arena : Arena) (source target : Nat) : Arena :=
  let moved := arena.children source
  moved.foldl (fun arena node => arena.append target node)
    (arena.change source ({ · with children := #[] }))

/-- Adds to the text of a node, if it is text. -/
def extendText (arena : Arena) (node : Nat) (content : String) : Arena :=
  arena.change node fun slot =>
    match slot with
    | ⟨.text before, parent, children, inside⟩ =>
        ⟨.text (before ++ content), parent, children, inside⟩
    | other => other

def isText (arena : Arena) (node : Nat) : Bool :=
  match arena.slot? node with
  | some ⟨.text _, _, _, _⟩ => true
  | _ => false

/-- Puts text at the end of a node, joined to text that stands there. -/
def appendText (arena : Arena) (parent : Nat) (content : String) : Arena :=
  match (arena.children parent).back? with
  | some last =>
      if arena.isText last then arena.extendText last content
      else
        let (arena, node) := arena.add (.text content)
        arena.append parent node
  | none =>
      let (arena, node) := arena.add (.text content)
      arena.append parent node

/-- The position of a node among the children of its parent. -/
def position? (arena : Arena) (node : Nat) : Option (Nat × Nat) := do
  let parent ← arena.parent? node
  let index ← (arena.children parent).findIdx? (· == node)
  return (parent, index)

/-- Puts a node into a parent at the position. -/
def insertAt (arena : Arena) (parent index node : Nat) : Arena :=
  (arena.setParent node (some parent)).change parent fun slot =>
    { slot with
      children := slot.children.extract 0 index ++ #[node] ++
        slot.children.extract index slot.children.size }

/-- Puts text before a node, joined to text that stands there. -/
def insertTextBefore (arena : Arena) (sibling : Nat) (content : String) : Arena :=
  match arena.position? sibling with
  | none => arena
  | some (parent, index) =>
      let before? := if index = 0 then none else (arena.children parent)[index - 1]?
      match before?.filter arena.isText with
      | some before => arena.extendText before content
      | none =>
          let (arena, node) := arena.add (.text content)
          arena.insertAt parent index node

def insertBefore (arena : Arena) (sibling node : Nat) : Arena :=
  match arena.position? sibling with
  | none => arena
  | some (parent, index) => arena.insertAt parent index node

def changeElement (arena : Arena) (node : Nat) (edit : Element → Element) : Arena :=
  arena.change node fun slot =>
    match slot with
    | ⟨.element tag, parent, children, inside⟩ => ⟨.element (edit tag), parent, children, inside⟩
    | other => other

/-- The tree below a node, as deep as the number says. A holder has no tree. -/
def treeWithin (arena : Arena) : Nat → Nat → Option Node
  | 0, _ => none
  | depth + 1, node =>
      match arena.slot? node with
      | some ⟨.element tag, _, children, _⟩ =>
          some (.element tag (children.toList.filterMap (arena.treeWithin depth)))
      | some ⟨.text content, _, _, _⟩ => some (.text content)
      | some ⟨.comment content, _, _, _⟩ => some (.comment content)
      | _ => none

/-- The tree below a node. No branch is longer than there are nodes. -/
def tree? (arena : Arena) (node : Nat) : Option Node :=
  arena.treeWithin arena.slots.size node

/-- The first element at or below a node, in document order, that satisfies the test. -/
def findWithin (arena : Arena) (wanted : Element → Bool) : Nat → Nat → Option Nat
  | 0, _ => none
  | depth + 1, node =>
      if (arena.element? node).any wanted then some node
      else (arena.children node).toList.findSome? (arena.findWithin wanted depth)

def find? (arena : Arena) (wanted : Element → Bool) (node : Nat) : Option Nat :=
  arena.findWithin wanted arena.slots.size node

end Arena

end Bindery.Html
