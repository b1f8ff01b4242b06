import Bindery.Markdown.Cursor
import Bindery.Markdown.Prose
import Bindery.Text.Blank

/-!
# Table rows

The delimiter row that makes a table of the line above it, and the cells into
which bars cut a row.
-/

set_option autoImplicit false

namespace Bindery.Markdown

inductive Alignment where
  | none | left | center | right
  deriving Repr, DecidableEq

/-- What is known of the delimiter row so far. -/
structure DelimiterRow where
  columns : List Alignment
  current : Alignment
  atStart : Bool
  hasBar : Bool
  hasHyphen : Bool
  columnHasHyphen : Bool

namespace DelimiterRow

def empty : DelimiterRow := ⟨[], .none, true, false, false, false⟩

def colon (row : DelimiterRow) : DelimiterRow :=
  let current := match row.atStart, row.current with
    | true, .none => Alignment.left
    | false, .left => .center
    | false, .none => .right
    | _, current => current
  { row with current := current, atStart := false }

def hyphen (row : DelimiterRow) : DelimiterRow :=
  { row with atStart := false, hasHyphen := true, columnHasHyphen := true }

def closeColumn (row : DelimiterRow) : DelimiterRow :=
  { row with
    columns := row.columns ++ [row.current]
    current := .none
    atStart := true
    hasBar := true
    columnHasHyphen := false }

/-- Reads the row up to its line ending. A bar closes a column that has a hyphen. -/
def read (row : DelimiterRow) : List Char → Option DelimiterRow
  | [] => some row
  | c :: rest =>
      if c == '\n' || c == '\r' then some row
      else if c == ' ' then read row rest
      else if c == ':' then read row.colon rest
      else if c == '-' then read row.hyphen rest
      else if c == '|' && row.columnHasHyphen then read row.closeColumn rest
      else none

/-- The columns of a complete row. -/
def alignments? (row : DelimiterRow) : Option (List Alignment) :=
  if row.hasBar && row.hasHyphen then
    some (if row.atStart then row.columns else row.columns ++ [row.current])
  else none

end DelimiterRow

/-- The alignments of the delimiter row at the front of the text. -/
def delimiterRow? (text : List Char) : Option (List Alignment) :=
  let indent := runLength (· == ' ') text
  if indent > 3 then none
  else
    match text.drop indent with
    | [] => none
    | '|' :: rest => (DelimiterRow.empty.read rest).bind
        fun row => { row with hasBar := true }.alignments?
    | rest => (DelimiterRow.empty.read rest).bind DelimiterRow.alignments?

/-- What follows each bar that cuts the line. No bar cuts right behind a backslash. -/
def afterBars (previous : Char) : List Char → List (List Char)
  | [] => []
  | c :: rest =>
      if c == '|' && previous != '\\' then rest :: afterBars c rest else afterBars c rest

/-- The number of cells in a line of prose that would be the head of a table. -/
def headCells (previous : Char) (line : List Char) : Nat :=
  match (afterBars previous line).reverse with
  | [] => 0
  | last :: bars =>
      let opening := if (line.dropWhile isLineSpace).head? = some '|' then 1 else 0
      let closing := if last.all isLineSpace then 1 else 0
      bars.length + 2 - opening - closing

/-- The length of the cell at the front of the text. -/
def cellLength (previous : Char) : List Char → Nat
  | [] => 0
  | c :: rest => if c == '|' && previous != '\\' then 0 else cellLength c rest + 1

/-- The cells of a row, without the blanks around them. -/
def rowCells (before : Char) (line : List Char) : List Prose :=
  go (line.length + 1) before line
where
  go : Nat → Char → List Char → List Prose
    | 0, _, _ => []
    | fuel + 1, before, line =>
        let (before, line) := match line with
          | '|' :: rest => (' ', rest)
          | _ => (before, line)
        let (before, line) := match line with
          | c :: _ => if isLineSpace c then (' ', line.dropWhile isLineSpace) else (before, line)
          | [] => (before, line)
        if line.isEmpty then []
        else
          let length := cellLength before line
          let text := Text.dropEndWhile isLineSpace (line.take length)
          ⟨before, text, [], true⟩ ::
            go fuel (((line.take length).getLast?).getD before) (line.drop length)

end Bindery.Markdown
