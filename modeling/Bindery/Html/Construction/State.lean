import Bindery.Html.Arena
import Bindery.Html.Construction.Category
import Bindery.Html.Token.Reader

/-!
# The state of tree construction

The open elements are listed from the innermost out, and the formatting
elements from the latest back.
-/

set_option autoImplicit false

namespace Bindery.Html

/-- The place in the document that decides what a token means. -/
inductive Mode where
  | initial
  | beforeHtml
  | beforeHead
  | inHead
  | afterHead
  | inBody
  | inText
  | inTable
  | inTableText
  | inCaption
  | inColumns
  | inTableBody
  | inRow
  | inCell
  | inSelect
  | inSelectInTable
  | inTemplate
  | afterBody
  | afterDocument
  | inFrames
  deriving Repr, DecidableEq, Inhabited

/-- An entry in the list of formatting elements. -/
inductive Formatting where
  /-- Formatting does not reach across a marker. -/
  | marker
  | element (node : Nat) (tag : Tag)
  deriving Repr, Inhabited

structure State where
  arena : Arena
  mode : Mode
  /-- The mode to go back to from text or from the text of a table. -/
  returnMode : Mode
  reading : Reading
  opened : List Nat
  formatting : List Formatting
  templateModes : List Mode
  head? : Option Nat
  form? : Option Nat
  /-- A set of frames may still take the place of the body. -/
  framesAllowed : Bool
  /-- Content is moved out of tables. -/
  fostering : Bool
  /-- A table may stand inside a paragraph. -/
  lenient : Bool
  /-- A line feed that comes first in the next text is dropped. -/
  skipsNewline : Bool
  /-- The text read in a table, from its end; each part says whether it is blank. -/
  pending : List (Bool × String)
  deriving Repr, Inhabited

/-- What is left to do after a token has been looked at. -/
inductive Step where
  | done (state : State)
  /-- The token is looked at again in the state's mode. -/
  | again (state : State)

def Step.state : Step → State
  | .done state => state
  | .again state => state

def Step.mapState (change : State → State) : Step → Step
  | .done state => .done (change state)
  | .again state => .again (change state)

namespace State

/-- The document before anything has been read. Its own node is the first one. -/
def start : State where
  arena := (Arena.empty.add .holder).1
  mode := .initial
  returnMode := .inBody
  reading := .data
  opened := []
  formatting := []
  templateModes := []
  head? := none
  form? := none
  framesAllowed := true
  fostering := false
  lenient := false
  skipsNewline := false
  pending := []

/-- The node of the document itself. -/
def document : Nat := 0

def current? (state : State) : Option Nat := state.opened.head?

def current (state : State) : Element :=
  match state.opened with
  | node :: _ => state.arena.element node
  | [] => Arena.noElement

def element (state : State) (node : Nat) : Element := state.arena.element node

/-- Whether an HTML element of the name is open. -/
def hasOpen (state : State) (name : String) : Bool :=
  state.opened.any fun node => (state.element node).isHtml name

def root? (state : State) : Option Nat := state.opened.getLast?

def pop (state : State) : State := { state with opened := state.opened.tail }

def push (state : State) (node : Nat) : State := { state with opened := node :: state.opened }

def withMode (state : State) (mode : Mode) : State := { state with mode := mode }

def refuseFrames (state : State) : State := { state with framesAllowed := false }

/-! ## Where new content goes -/

inductive Place where
  | inside (parent : Nat)
  /-- Before a table, or inside the other node if the table stands nowhere. -/
  | beforeTable (table fallback : Nat)

/-- The inside of a template, or the node itself. -/
def insideOf (state : State) (node : Nat) : Nat :=
  if (state.element node).isHtml "template" then
    ((state.arena.slot? node).bind (·.inside)).getD node
  else node

/-- The place that content moved out of a table goes to. -/
def fosterPlace (state : State) : List Nat → Place
  | [] => .inside document
  | [root] => .inside root
  | node :: below :: rest =>
      if (state.element node).isHtml "template" then .inside (state.insideOf node)
      else if (state.element node).isHtml "table" then .beforeTable node below
      else state.fosterPlace (below :: rest)

/-- The place for content that belongs into the given node. -/
def placeIn (state : State) (target : Nat) : Place :=
  if state.fostering && (state.element target).fosters then state.fosterPlace state.opened
  else .inside (state.insideOf target)

/-- The place for content that belongs into the innermost open element. -/
def place (state : State) : Place := state.placeIn (state.current?.getD document)

def insertNode (state : State) (place : Place) (node : Nat) : State :=
  match place with
  | .inside parent => { state with arena := state.arena.append parent node }
  | .beforeTable table fallback =>
      if (state.arena.parent? table).isSome then
        { state with arena := state.arena.insertBefore table node }
      else { state with arena := state.arena.append fallback node }

def insertText (state : State) (content : String) : State :=
  match state.place with
  | .inside parent => { state with arena := state.arena.appendText parent content }
  | .beforeTable table fallback =>
      if (state.arena.parent? table).isSome then
        { state with arena := state.arena.insertTextBefore table content }
      else { state with arena := state.arena.appendText fallback content }

def insertComment (state : State) (content : String) : State :=
  let place := state.place
  let (arena, node) := state.arena.add (.comment content)
  { state with arena := arena }.insertNode place node

/-- Adds a comment that is no part of the body. -/
def insertCommentIn (state : State) (parent : Nat) (content : String) : State :=
  let (arena, node) := state.arena.add (.comment content)
  { state with arena := arena.append parent node }

def create (state : State) (tag : Element) : State × Nat :=
  let (arena, node) := state.arena.addElement tag
  ({ state with arena := arena }, node)

def insertClosed (state : State) (tag : Element) : State :=
  let place := state.place
  let (state, node) := state.create tag
  state.insertNode place node

def insertOpen (state : State) (tag : Element) : State × Nat :=
  let place := state.place
  let (state, node) := state.create tag
  ((state.insertNode place node).push node, node)

end State

def Tag.element (tag : Tag) : Element := .ofName tag.name tag.attributes

namespace State

/-- Inserts and opens the HTML element of a start tag. -/
def openTag (state : State) (tag : Tag) : State := (state.insertOpen tag.element).1

/-- Inserts and opens an HTML element that no tag has named. -/
def openName (state : State) (name : String) : State := (state.insertOpen (.ofName name [])).1

/-! ## Closing elements -/

/-- Closes elements up to one that satisfies the test, which is closed too. -/
def popThrough (state : State) (wanted : Element → Bool) : State :=
  { state with opened := (state.opened.dropWhile fun node => !wanted (state.element node)).tail }

def popThroughName (state : State) (name : String) : State := state.popThrough (·.isHtml name)

/-- Closes elements down to one that satisfies the test, which stays open. -/
def popDownTo (state : State) (wanted : Element → Bool) : State :=
  { state with opened := state.opened.dropWhile fun node => !wanted (state.element node) }

/-- Closes the innermost elements as long as they are of these names. -/
def closeImplied (state : State) (names : List String) : State :=
  { state with opened := state.opened.dropWhile fun node => (state.element node).isOneOf names }

/-- Closes elements whose end tags may be left out. -/
def closeOptional (state : State) : State := state.closeImplied impliedEndNames

/-- Closes elements whose end tags may be left out, except those of the name. -/
def closeOptionalExcept (state : State) (name : String) : State :=
  state.closeImplied (impliedEndNames.filter (· ≠ name))

/-- Whether an open element that satisfies the test is found before one that bounds the search. -/
def findsOpen (state : State) (bounds : Element → Bool) (wanted : Nat → Element → Bool) :
    List Nat → Bool
  | [] => false
  | node :: rest =>
      let tag := state.element node
      wanted node tag || (!bounds tag && state.findsOpen bounds wanted rest)

def inScope (state : State) (bounds : Element → Bool) (wanted : Element → Bool) : Bool :=
  state.findsOpen bounds (fun _ => wanted) state.opened

def nameInScope (state : State) (bounds : Element → Bool) (name : String) : Bool :=
  state.inScope bounds (·.isHtml name)

def removeOpen (state : State) (node : Nat) : State :=
  { state with opened := state.opened.erase node }

def closeParagraph (state : State) : State :=
  (state.closeOptionalExcept "p").popThroughName "p"

def closeParagraphInScope (state : State) : State :=
  if state.nameInScope Element.boundsButton "p" then state.closeParagraph else state

/-- Drops the formatting elements since the last marker, and the marker. -/
def clearFormatting (state : State) : State :=
  { state with
    formatting := (state.formatting.dropWhile fun entry =>
      match entry with
      | .marker => false
      | .element _ _ => true).tail }

def addMarker (state : State) : State :=
  { state with formatting := .marker :: state.formatting }

def closeCell (state : State) : State :=
  (state.closeOptional.popThrough Element.isCell).clearFormatting

def modeFor (state : State) : List Nat → Mode
  | [] => .inBody
  | node :: rest =>
      let tag := state.element node
      let last := rest.isEmpty
      if tag.space ≠ .html then state.modeFor rest
      else if tag.name = "select" then
        match rest.find? fun below => (state.element below).isOneOf ["template", "table"] with
        | some below => if (state.element below).isHtml "table" then .inSelectInTable else .inSelect
        | none => .inSelect
      else if tag.isCell && !last then .inCell
      else if tag.name = "tr" then .inRow
      else if tag.isOneOf ["tbody", "thead", "tfoot"] then .inTableBody
      else if tag.name = "caption" then .inCaption
      else if tag.name = "colgroup" then .inColumns
      else if tag.name = "table" then .inTable
      else if tag.name = "template" then state.templateModes.headD .inBody
      else if tag.name = "head" && !last then .inHead
      else if tag.name = "body" then .inBody
      else if tag.name = "frameset" then .inFrames
      else if tag.name = "html" then (if state.head?.isSome then .afterHead else .beforeHead)
      else state.modeFor rest

/-- Goes to the mode that the open elements call for. -/
def resetMode (state : State) : State := state.withMode (state.modeFor state.opened)

/-- Opens an element whose content is text, and reads its text as told. -/
def openText (state : State) (tag : Tag) (reading : Reading) : State :=
  { state.openTag tag with returnMode := state.mode, mode := .inText, reading := reading }

end State

end Bindery.Html
