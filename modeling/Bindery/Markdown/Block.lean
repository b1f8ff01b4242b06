import Bindery.Markdown.Link
import Bindery.Markdown.Table

/-!
# Blocks

The block structure of a Markdown text, and what its definitions declare.
-/

set_option autoImplicit false

namespace Bindery.Markdown

/-- A block. A fenced code block has an information string. In a tight list the paragraphs that
are direct children of an item have no mark of their own. -/
inductive Block where
  | paragraph (text : Prose)
  | heading (level : Nat) (text : Prose)
  | code (info : Option (List Char)) (text : List Char)
  | html (text : List Char)
  | rule
  | table (columns : List Alignment) (head : List Prose) (rows : List (List Prose))
  | quote (children : List Block)
  | list (start : Option Nat) (tight : Bool) (items : List Block)
  | item (children : List Block)
  | footnote (label : List Char) (children : List Block)

/-- The link targets, each under the key of its label, and the keys of the footnotes. -/
structure Definitions where
  targets : List (List Char × Target)
  footnotes : List (List Char)

namespace Definitions

def empty : Definitions := ⟨[], []⟩

/-- The first definition of a label holds. -/
def addTarget (definitions : Definitions) (label : List Char) (target : Target) : Definitions :=
  { definitions with targets := definitions.targets ++ [(labelKey label, target)] }

def addFootnote (definitions : Definitions) (label : List Char) : Definitions :=
  { definitions with footnotes := labelKey label :: definitions.footnotes }

def target? (definitions : Definitions) (label : List Char) : Option Target :=
  definitions.targets.lookup (labelKey label)

def hasFootnote (definitions : Definitions) (label : List Char) : Bool :=
  definitions.footnotes.contains (labelKey label)

end Definitions

end Bindery.Markdown
