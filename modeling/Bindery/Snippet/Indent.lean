import Bindery.Text.Blank
import Bindery.Text.Lines

/-!
# Indentation

Spaces and tabs count alike.
-/

set_option autoImplicit false

namespace Bindery.Snippet

def isIndent (c : Char) : Bool := c == ' ' || c == '\t'

/-- How many spaces and tabs a line starts with. -/
def indentWidth (line : List Char) : Nat := (line.takeWhile isIndent).length

/-- The smallest indentation of the lines that are not blank; zero if all are. -/
def commonIndent (lines : List (List Char)) : Nat :=
  (((lines.filter fun line => !Text.allBlank line).map indentWidth).min?).getD 0

/-- Drops spaces and tabs at the start of a line, at most the given number. -/
def dropIndent : Nat → List Char → List Char
  | _, [] => []
  | 0, line => line
  | width + 1, c :: rest => if isIndent c then dropIndent width rest else c :: rest

def stripLines (lines : List (List Char)) : List (List Char) :=
  lines.map (dropIndent (commonIndent lines))

def stripIndent (text : List Char) : List Char := Text.join ['\n'] (stripLines (Text.lines text))

end Bindery.Snippet
