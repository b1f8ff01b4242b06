import Bindery.Markdown.Leaf

/-!
# Documents

Assembles the lines of a text into blocks. The containers that are open form a
stack; every line continues some of them, may open others, and ends in a leaf.
-/

set_option autoImplicit false

namespace Bindery.Markdown

/-- A container that is still open, with its children so far, the last one first. -/
structure OpenContainer where
  container : Container
  children : List Block

/-- `stack` holds the open containers, the innermost first, and `blocks` what is outside all of
them, the last block first. `blankBefore` remembers a blank line inside an item or a footnote,
`emptyItem` an item whose first line was empty. -/
structure Assembly where
  cursor : Cursor
  stack : List OpenContainer
  blocks : List Block
  blankBefore : Bool
  emptyItem : Bool
  definitions : Definitions

namespace Assembly

def start (text : List Char) : Assembly :=
  ⟨Cursor.ofText text, [], [], false, false, Definitions.empty⟩

/-- The open containers, outermost first. -/
def containers (assembly : Assembly) : List Container :=
  (assembly.stack.map OpenContainer.container).reverse

def add (assembly : Assembly) (block : Block) : Assembly :=
  match assembly.stack with
  | [] => { assembly with blocks := block :: assembly.blocks }
  | inner :: outer =>
      { assembly with stack := { inner with children := block :: inner.children } :: outer }

def enter (assembly : Assembly) (container : Container) : Assembly :=
  { assembly with stack := ⟨container, []⟩ :: assembly.stack }

def leave (assembly : Assembly) : Assembly :=
  match assembly.stack with
  | [] => assembly
  | inner :: outer =>
      add { assembly with stack := outer, emptyItem := false }
        (inner.container.toBlock inner.children.reverse)

def leaveTo (count : Nat) : Nat → Assembly → Assembly
  | 0, assembly => assembly
  | fuel + 1, assembly =>
      if assembly.stack.length ≤ count then assembly else leaveTo count fuel assembly.leave

def inside (assembly : Assembly) (test : Container → Bool) : Bool :=
  (assembly.stack.head?).any fun inner => test inner.container

def isList : Container → Bool
  | .list .. => true
  | _ => false

def isFootnote : Container → Bool
  | .footnote _ => true
  | _ => false

def isQuote : Container → Bool
  | .quote => true
  | _ => false

def isItem : Container → Bool
  | .item _ => true
  | _ => false

/-- A list that is not tight sets blank lines between its blocks. -/
def loosen (inner : OpenContainer) : OpenContainer :=
  match inner.container with
  | .list mark start _ => { inner with container := .list mark start false }
  | _ => inner

/-- Closes a list between two items, and makes the list around the current item loose if a blank
line precedes. -/
def endList (assembly : Assembly) : Assembly :=
  let assembly := if assembly.inside isList then assembly.leave else assembly
  if assembly.blankBefore then
    let stack := match assembly.stack with
      | inner :: outer :: rest => inner :: loosen outer :: rest
      | stack => stack
    { assembly with stack := stack, blankBefore := false }
  else assembly

/-- Continues the list with the same mark, or opens a new one. -/
def enterList (assembly : Assembly) (mark : Char) (start : Nat) : Assembly :=
  let same := assembly.inside fun
    | .list open? _ _ => open? == mark
    | _ => false
  if same then
    if assembly.blankBefore then
      let stack := match assembly.stack with
        | inner :: rest => loosen inner :: rest
        | stack => stack
      { assembly with stack := stack, blankBefore := false }
    else assembly
  else
    { assembly.endList.enter (.list mark start true) with blankBefore := false }

/-- Opens the containers whose marks stand at the cursor. The second part tells that the line is
finished, for it held nothing but an item's mark. -/
def enterMarked : Nat → Assembly → Assembly × Bool
  | 0, assembly => (assembly, false)
  | fuel + 1, assembly =>
      let (cursor, missing) := assembly.cursor.skipColumns 4
      if missing = 0 then (assembly, false)
      else
        match footnoteOpening? false cursor.rest with
        | some (label, after) =>
            let assembly := assembly.endList
            let assembly := if assembly.inside isFootnote then assembly.leave else assembly
            let behind := after.dropWhile isLineSpace
            let cursor := (cursor.advance (cursor.rest.length - behind.length)).startLine
            enterMarked fuel
              { assembly.enter (.footnote label) with
                cursor := cursor
                definitions := assembly.definitions.addFootnote label }
        | none =>
            match listMark? (4 - missing) cursor with
            | some item =>
                let assembly := (assembly.enterList item.mark item.start).enter (.item item.indent)
                match blankLine? item.rest.rest with
                | some length =>
                    ({ assembly with cursor := item.rest.advance length, emptyItem := true }, true)
                | none => enterMarked fuel { assembly with cursor := item.rest }
            | none =>
                match cursor.skipChar? '>' with
                | some after =>
                    enterMarked fuel
                      { assembly.endList.enter .quote with cursor := (after.skipColumns 1).1 }
                | none => (assembly, false)

/-- Passes a blank line. An item whose first two lines are blank is empty. -/
def passBlankLine (assembly : Assembly) (length : Nat) : Assembly :=
  let passed := { assembly with cursor := assembly.cursor.advance length }
  if passed.stack.isEmpty || passed.inside isQuote then passed
  else if passed.emptyItem && passed.inside isItem then { passed.leave with blankBefore := true }
  else { passed with blankBefore := true }

def addLeaf (assembly : Assembly) (leaf : Block × Cursor) : Assembly :=
  { assembly.add leaf.1 with cursor := leaf.2 }

/-- Reads the leaf at the cursor, which is not at a blank line. -/
def readLeaf (assembly : Assembly) : Assembly :=
  let containers := assembly.containers
  let fuel := assembly.cursor.rest.length + 1
  let (cursor, missing) := assembly.cursor.skipColumns 4
  if missing = 0 then
    let (entries, blank, last) := readIndented containers fuel false cursor
    { assembly.addLeaf (.code none (codeText entries), last) with blankBefore := blank }
  else
    let indent := 4 - missing
    let text := cursor.rest
    let raw := match text with
      | '<' :: rest =>
          match interruptingHtml? rest with
          | some closing => some closing
          | none => if startsTagLine text then some .blankLine else none
      | _ => none
    match raw with
    | some closing =>
        let (html, last) :=
          readHtml closing containers fuel (List.replicate indent ' ') cursor
        assembly.addLeaf (.html html, last)
    | none =>
        match ruleLength? text, headingLevel? text, fence? text with
        | some length, _, _ => assembly.addLeaf (.rule, cursor.advance length)
        | none, some level, _ => assembly.addLeaf (readHeading level cursor)
        | none, none, some (mark, marks) =>
            assembly.addLeaf (readFence mark marks indent containers cursor)
        | none, none, none =>
            match targetDefinition? containers text with
            | some (label, target, after) =>
                let last := cursor.advance (text.length - after.length)
                { assembly with
                  cursor := last.advance ((blankLine? last.rest).getD 0)
                  definitions := assembly.definitions.addTarget label target }
            | none => assembly.addLeaf (readParagraph containers cursor)

/-- Reads the line at the cursor, and with it the rest of the leaf that it opens. -/
def readLine (assembly : Assembly) : Assembly :=
  let (count, cursor) := skipMarks assembly.containers assembly.cursor.startLine
  let continued := leaveTo count assembly.stack.length assembly
  let (opened, finished) :=
    enterMarked (cursor.rest.length + 1) { continued with cursor := cursor }
  if finished then opened
  else
    match blankLine? opened.cursor.rest with
    | some length => opened.passBlankLine length
    | none => readLeaf { opened.endList with emptyItem := false }

def readAll : Nat → Assembly → Assembly
  | 0, assembly => leaveTo 0 assembly.stack.length assembly
  | fuel + 1, assembly =>
      if assembly.cursor.rest.isEmpty then leaveTo 0 assembly.stack.length assembly
      else readAll fuel assembly.readLine

end Assembly

/-- The blocks of a text, and its definitions. -/
structure Document where
  blocks : List Block
  definitions : Definitions

def Document.ofText (text : List Char) : Document :=
  let assembly := (Assembly.start text).readAll (text.length + 1)
  ⟨assembly.blocks.reverse, assembly.definitions⟩

end Bindery.Markdown
