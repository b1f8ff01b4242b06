import Bindery.Html.Construction.State

/-!
# Formatting elements

Elements such as `b` and `a` go on behind the end of the block they were opened
in. The list of formatting elements remembers which ones to open again, and a
misplaced end tag splits the element that it closes.
-/

set_option autoImplicit false

namespace Bindery.Html

namespace Formatting

def node? : Formatting → Option Nat
  | .marker => none
  | .element node _ => some node

def isElement (entry : Formatting) (node : Nat) : Bool := entry.node? == some node

end Formatting

/-- Whether two tags agree up to the order of their attributes. No name occurs twice in either. -/
def Tag.agrees (one other : Tag) : Bool :=
  one.name = other.name && one.attributes.length = other.attributes.length &&
    one.attributes.all other.attributes.contains

namespace State

def recentFormatting (state : State) : List (Nat × Tag) :=
  go state.formatting
where
  go : List Formatting → List (Nat × Tag)
    | [] => []
    | .marker :: _ => []
    | .element node tag :: rest => (node, tag) :: go rest

def isFormatting (state : State) (node : Nat) : Bool :=
  state.formatting.any (·.isElement node)

def dropFormatting (state : State) (node : Nat) : State :=
  { state with formatting := state.formatting.filter fun entry => !entry.isElement node }

def replaceFormatting (state : State) (node : Nat) (entries : List Formatting) : State :=
  { state with
    formatting := state.formatting.flatMap fun entry =>
      if entry.isElement node then entries else [entry] }

/-- Whether nothing has to be opened again from this entry back. -/
def settled (state : State) : Formatting → Bool
  | .marker => true
  | .element node _ => state.opened.contains node

/-- Opens the formatting elements again that were closed since the last settled one. -/
def reopenFormatting (state : State) : State :=
  let lost := state.formatting.takeWhile fun entry => !state.settled entry
  lost.reverse.foldl
    (fun state entry =>
      match entry with
      | .marker => state
      | .element node tag =>
          let (state, fresh) := state.insertOpen tag.element
          state.replaceFormatting node [.element fresh tag])
    state

/-- Opens a formatting element. Of three equal ones the earliest is forgotten. -/
def openFormatting (state : State) (tag : Tag) : State :=
  let equal := state.recentFormatting.filter fun (_, other) => tag.agrees other
  let state :=
    match equal.getLast? with
    | some (node, _) => if equal.length ≥ 3 then state.dropFormatting node else state
    | none => state
  let (state, node) := state.insertOpen tag.element
  { state with formatting := .element node tag :: state.formatting }

/-- Closes the element of an end tag that has no rule of its own. -/
def closeOrdinary (state : State) (name : String) : State :=
  if reaches state.opened then state.popThroughName name else state
where
  reaches : List Nat → Bool
    | [] => false
    | node :: rest =>
        (state.element node).isHtml name || (!(state.element node).isSpecial && reaches rest)

def formattingTag? (state : State) (node : Nat) : Option Tag :=
  state.formatting.findSome? fun entry =>
    match entry with
    | .marker => none
    | .element other tag => if other = node then some tag else none

/-- What has become of the nodes between a block and the formatting element around it. -/
structure Split where
  state : State
  /-- Copies of the nodes, innermost first. -/
  copies : List Nat
  /-- The last copy, which holds the one before it, or the block itself. -/
  outermost : Nat

/-- Copies the formatting elements among the nodes outside a block, innermost first, and
puts each into the next. Nodes beyond the third are not copied, nor are other elements. -/
def splitBetween : Nat → List Nat → Split → Split
  | _, [], split => split
  | count, node :: rest, split =>
      if count ≥ 3 then
        splitBetween (count + 1) rest { split with state := split.state.dropFormatting node }
      else
        match split.state.formattingTag? node with
        | none => splitBetween (count + 1) rest split
        | some tag =>
            let (state, copy) := split.state.create tag.element
            let state := state.replaceFormatting node [.element copy tag]
            let arena := (state.arena.detach split.outermost).append copy split.outermost
            splitBetween (count + 1) rest
              ⟨{ state with arena := arena }, split.copies ++ [copy], copy⟩

/-- Splits a formatting element at the block inside it: what the block holds goes into a
copy of the element inside the block. `between` are the nodes from the block out to the
element, and `inner` and `outer` the open elements around all of them. -/
def splitAround (state : State) (inner : List Nat) (block : Nat) (between : List Nat)
    (node : Nat) (tag : Tag) (outer : List Nat) : State :=
  let ⟨state, copies, outermost⟩ := splitBetween 0 between ⟨state, [], block⟩
  let state := { state with arena := state.arena.detach outermost }
  let state := state.insertNode (state.placeIn (outer.headD document)) outermost
  let (state, copy) := state.create tag.element
  let arena := (state.arena.moveChildren block copy).append block copy
  let state := { state with arena := arena }
  let entry := Formatting.element copy tag
  let state :=
    match copies with
    | [] => state.replaceFormatting node [entry]
    | first :: _ =>
        let state := state.dropFormatting node
        match state.formattingTag? first with
        | some firstTag => state.replaceFormatting first [entry, .element first firstTag]
        | none => state
  { state with opened := inner ++ copy :: block :: copies ++ outer }

/-- One attempt to close a formatting element by its name; true if another may follow. -/
def splitOnce (state : State) (name : String) : State × Bool :=
  match state.recentFormatting.find? fun (_, tag) => tag.name = name with
  | none => (state.closeOrdinary name, false)
  | some (node, tag) =>
      if !state.opened.contains node then (state.dropFormatting node, false)
      else if !state.findsOpen Element.boundsScope (fun other _ => other == node) state.opened then
        (state, false)
      else
        let above := state.opened.takeWhile (· != node)
        let outer := state.opened.drop (above.length + 1)
        match above.reverse.findIdx? fun other => (state.element other).isSpecial with
        | none => ({ state.dropFormatting node with opened := outer }, false)
        | some depth =>
            match above.drop (above.length - 1 - depth) with
            | block :: between =>
                let inner := above.take (above.length - 1 - depth)
                (state.splitAround inner block between node tag outer, true)
            | [] => (state, false)

def splitRepeatedly : Nat → State → String → State
  | 0, state, _ => state
  | attempts + 1, state, name =>
      match state.splitOnce name with
      | (state, true) => splitRepeatedly attempts state name
      | (state, false) => state

/-- Closes the formatting element of the name, wherever the end tag stands. -/
def closeFormatting (state : State) (name : String) : State :=
  match state.opened with
  | node :: _ =>
      if (state.element node).isHtml name && !state.isFormatting node then state.pop
      else splitRepeatedly 8 state name
  | [] => state

end State

end Bindery.Html
