/-!
# Line cursor

A position in a Markdown text together with what indentation needs: the column
counted from the last tab stop, and the columns of a tab that are still unused.
-/

set_option autoImplicit false

namespace Bindery.Markdown

/-- `before` is the last character passed, a line feed at the start of the text. -/
structure Cursor where
  before : Char
  rest : List Char
  column : Nat
  spare : Nat

namespace Cursor

def ofText (text : List Char) : Cursor := ⟨'\n', text, 0, 0⟩

/-- Forgets the indentation: tab stops count from here. -/
def startLine (cursor : Cursor) : Cursor := { cursor with column := 0, spare := 0 }

def advance : Nat → Cursor → Cursor
  | 0, cursor => cursor
  | count + 1, cursor =>
      match cursor.rest with
      | [] => cursor
      | c :: rest => advance count ⟨c, rest, cursor.column + 1, cursor.spare⟩

/-- Passes up to `wanted` columns of spaces and tabs; the second part tells how many are missing. -/
def skipColumns (wanted : Nat) (cursor : Cursor) : Cursor × Nat :=
  let used := min cursor.spare wanted
  go (wanted - used) cursor.before cursor.rest cursor.column (cursor.spare - used)
where
  go (wanted : Nat) (before : Char) (rest : List Char) (column spare : Nat) : Cursor × Nat :=
    match wanted, rest with
    | wanted + 1, ' ' :: rest => go wanted ' ' rest (column + 1) spare
    | wanted + 1, '\t' :: rest =>
        let width := 4 - column % 4
        let used := min width (wanted + 1)
        go (wanted + 1 - used) '\t' rest 0 (width - used)
    | wanted, rest => (⟨before, rest, column, spare⟩, wanted)
  termination_by rest.length

/-- Passes exactly `wanted` columns, if there are as many. -/
def skipColumns? (wanted : Nat) (cursor : Cursor) : Option Cursor :=
  match cursor.skipColumns wanted with
  | (next, 0) => some next
  | _ => none

def skipIndent (cursor : Cursor) : Cursor :=
  go cursor.before cursor.rest
where
  go (before : Char) : List Char → Cursor
    | ' ' :: rest => go ' ' rest
    | '\t' :: rest => go '\t' rest
    | rest => ⟨before, rest, 0, 0⟩

def skipChar? (c : Char) (cursor : Cursor) : Option Cursor :=
  match cursor.rest with
  | d :: _ => if c = d then some (cursor.advance 1) else none
  | [] => none

/-- At a line ending or at the end of the text. -/
def atLineEnd (cursor : Cursor) : Bool :=
  match cursor.rest with
  | [] => true
  | c :: _ => c == '\n' || c == '\r'

end Cursor

/-- White space within a line. -/
def isLineSpace (c : Char) : Bool :=
  c == ' ' || c == '\t' || c == '\x0b' || c == '\x0c'

/-- ASCII white space. -/
def isSpace (c : Char) : Bool := isLineSpace c || c == '\n' || c == '\r'

/-- The length of the line ending at the front; zero at the end of the text. -/
def lineEnding? : List Char → Option Nat
  | [] => some 0
  | '\n' :: _ => some 1
  | '\r' :: '\n' :: _ => some 2
  | '\r' :: _ => some 1
  | _ => none

/-- The length of a run of characters that satisfy the test. -/
def runLength (test : Char → Bool) : List Char → Nat
  | [] => 0
  | c :: rest => if test c then runLength test rest + 1 else 0

/-- The length of the line, its ending included, if it is blank. -/
def blankLine? (text : List Char) : Option Nat :=
  let spaces := runLength isLineSpace text
  (lineEnding? (text.drop spaces)).map (spaces + ·)

/-- The length of the text up to and including the next line feed. -/
def lineFeedLength : List Char → Nat
  | [] => 0
  | '\n' :: _ => 1
  | _ :: rest => lineFeedLength rest + 1

/-- The length of the text before the next line ending. -/
def contentLength (text : List Char) : Nat :=
  runLength (fun c => c != '\n' && c != '\r') text

end Bindery.Markdown
