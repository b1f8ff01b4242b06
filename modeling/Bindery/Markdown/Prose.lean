/-!
# Prose

The text of a paragraph, heading or table cell, freed of the marks of the
blocks around it and ready for inline markup.
-/

set_option autoImplicit false

namespace Bindery.Markdown

/-- A line break as it was written: the ending of one line and the block marks of the next. -/
structure Break where
  ending : List Char
  marks : List Char
  deriving Repr, DecidableEq

/-- The lines of `text` are joined by line feeds, one for each of `breaks`. `before` is the
character in front of the text. In a table a bar is written with a backslash. -/
structure Prose where
  before : Char
  text : List Char
  breaks : List Break
  inTable : Bool
  deriving Repr, DecidableEq

end Bindery.Markdown
