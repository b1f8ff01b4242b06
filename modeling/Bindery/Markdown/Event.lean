import Bindery.Markdown.Document
import Bindery.Markdown.Inline

/-!
# Events

A document as a sequence of starts, ends and contents in reading order.
-/

set_option autoImplicit false

namespace Bindery.Markdown

inductive Tag where
  | paragraph
  | heading (level : Nat)
  | quote
  | code (info : Option (List Char))
  | list (start : Option Nat)
  | item
  | footnote (label : List Char)
  | table (columns : List Alignment)
  | tableHead
  | tableRow
  | tableCell
  | styled (style : Style)
  | link (mail : Bool) (target : Target)
  | image (target : Target)
  deriving Repr, DecidableEq

inductive Event where
  | start (tag : Tag)
  | finish (tag : Tag)
  | text (content : List Char)
  | code (content : List Char)
  | html (content : List Char)
  | footnoteReference (label : List Char)
  | softBreak
  | hardBreak
  | rule
  deriving Repr, DecidableEq

/-- The events of an element around those of its content. -/
def Event.enclose (tag : Tag) (content : List Event) : List Event :=
  .start tag :: content ++ [.finish tag]

mutual

def Inline.events : Inline → List Event
  | .text content => [.text content]
  | .code content => [.code content]
  | .html content => [.html content]
  | .footnote label => [.footnoteReference label]
  | .softBreak => [.softBreak]
  | .hardBreak => [.hardBreak]
  | .link mail target children => Event.enclose (.link mail target) (inlineEvents children)
  | .image target children => Event.enclose (.image target) (inlineEvents children)
  | .styled style children => Event.enclose (.styled style) (inlineEvents children)

def inlineEvents : List Inline → List Event
  | [] => []
  | content :: rest => content.events ++ inlineEvents rest

end

def Prose.events (definitions : Definitions) (prose : Prose) : List Event :=
  inlineEvents (prose.inlines definitions)

def rowEvents (definitions : Definitions) (row : List Prose) : List Event :=
  row.flatMap fun cell => Event.enclose .tableCell (cell.events definitions)

mutual

/-- The events of a block. `tight` holds for the children of an item in a tight list. -/
def Block.events (definitions : Definitions) (tight : Bool) : Block → List Event
  | .paragraph text =>
      if tight then text.events definitions
      else Event.enclose .paragraph (text.events definitions)
  | .heading level text => Event.enclose (.heading level) (text.events definitions)
  | .code info text => Event.enclose (.code info) (if text.isEmpty then [] else [.text text])
  | .html text => [.html text]
  | .rule => [.rule]
  | .table columns head rows =>
      Event.enclose (.table columns)
        (Event.enclose .tableHead (rowEvents definitions head) ++
          rows.flatMap fun row => Event.enclose .tableRow (rowEvents definitions row))
  | .quote children => Event.enclose .quote (blockEvents definitions false children)
  | .list start tight items => Event.enclose (.list start) (blockEvents definitions tight items)
  | .item children => Event.enclose .item (blockEvents definitions tight children)
  | .footnote label children =>
      Event.enclose (.footnote label) (blockEvents definitions false children)

def blockEvents (definitions : Definitions) (tight : Bool) : List Block → List Event
  | [] => []
  | block :: rest => block.events definitions tight ++ blockEvents definitions tight rest

end

def Document.events (document : Document) : List Event :=
  blockEvents document.definitions false document.blocks

end Bindery.Markdown
