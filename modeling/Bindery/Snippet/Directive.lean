import Bindery.Text.Blank
import Bindery.Text.Lines
import Bindery.Text.Pattern

/-!
# The header of a snippet

A header names a language, then a file, then a part of the file: a range of
lines behind a colon or a named block behind a number sign.
-/

set_option autoImplicit false

namespace Bindery.Snippet

/-- Which part of a file a snippet shows. -/
inductive Mode where
  /-- The snippet brings its code along. -/
  | inline
  | wholeFile
  | range
  | block
  deriving Repr, DecidableEq, Inhabited

structure Directive where
  language : Option (List Char)
  file : Option (List Char)
  mode : Mode
  /-- What stands behind the sign. -/
  reference : Option (List Char)
  deriving Repr, DecidableEq, Inhabited

namespace Directive

/-- A header that cannot be read names nothing. -/
def unreadable : Directive := ⟨none, none, .inline, none⟩

/-- Whether the character separates a file from the part that is shown. -/
def isSign (c : Char) : Bool := c == ':' || c == '#'

/-- The words of a header with one space between them. -/
def squeeze (header : List Char) : List Char := Text.join [' '] (Text.words header)

/-- A sign and what stands behind it. -/
def partPattern {α : Type} (next : List Char × List Char → Text.Matcher α) : Text.Matcher α :=
  Text.group (Text.one isSign) fun sign =>
    Text.group (Text.leastOf (· != '\n')) fun reference => next (sign, reference)

/-- A file behind a space, and the part of it that is shown unless that is left out. -/
def filePattern {α : Type} (next : List Char × Option (List Char × List Char) → Text.Matcher α) :
    Text.Matcher α :=
  Text.one (· == ' ') <| Text.group (Text.someOf fun c => !isSign c) fun file =>
    Text.optional partPattern fun part => next (file, part)

/-- The directive of a language and, if they are there, a file and a part of it. -/
def ofGroups (language : List Char) :
    Option (List Char × Option (List Char × List Char)) → Directive
  | none => ⟨some language, none, .inline, none⟩
  | some (file, none) => ⟨some language, some file, .wholeFile, none⟩
  | some (file, some (sign, reference)) =>
      ⟨some language, some file, if sign = ['#'] then .block else .range, some reference⟩

/-- A language, and a file unless that is left out. -/
def headerPattern : Text.Matcher Directive :=
  Text.group (Text.someOf (· != ' ')) fun language =>
    Text.optional filePattern fun file => Text.textEnd fun _ _ => some (ofGroups language file)

def parse (header : List Char) : Directive := (headerPattern none (squeeze header)).getD unreadable

end Directive

end Bindery.Snippet
