import Bindery.Markdown.Container

/-!
# Leaf blocks

Paragraphs, headings, tables, code and raw HTML. Each is read from its first
line to the first line that does not belong to it.
-/

set_option autoImplicit false

namespace Bindery.Markdown

/-- A line up to and including its line feed. An ending of two characters is written as one. -/
def verbatimLine (text : List Char) : List Char × Nat :=
  let length := lineFeedLength text
  let line := text.take length
  match line.reverse with
  | '\n' :: '\r' :: body => (('\n' :: body).reverse, length)
  | _ => (line, length)

def spareSpaces (cursor : Cursor) : List Char := List.replicate cursor.spare ' '

/-- Reads raw HTML. The cursor stands behind the indentation of the first line. -/
def readHtml (closing : RawEnd) (containers : List Container) :
    Nat → List Char → Cursor → List Char × Cursor
  | 0, indent, cursor => (indent, cursor)
  | fuel + 1, indent, cursor =>
      let (line, length) := verbatimLine cursor.rest
      let after := cursor.advance length
      let raw := cursor.rest.take length
      let text := indent ++ line
      match skipAllMarks? containers after.startLine with
      | none => (text, after)
      | some next =>
          let ends := match closing with
            | .after mark => Text.hasInfix mark raw || next.rest.isEmpty
            | .blankLine => next.atLineEnd || (blankLine? next.rest).isSome
          if ends then (text, after)
          else
            let (more, last) := readHtml closing containers fuel (spareSpaces next) next
            (text ++ more, last)

/-- Reads indented code as lines, each marked whether it is blank. The cursor stands behind the
indentation. -/
def readIndented (containers : List Container) :
    Nat → Bool → Cursor → List (List Char × Bool) × Bool × Cursor
  | 0, blank, cursor => ([], blank, cursor)
  | fuel + 1, blank, cursor =>
      let (line, length) := verbatimLine cursor.rest
      let after := cursor.advance length
      let entry := (spareSpaces cursor ++ line, blank)
      match skipAllMarks? containers after.startLine with
      | none => ([entry], blank, after)
      | some next =>
          let (next, missing) := next.skipColumns 4
          if next.rest.isEmpty || (missing > 0 && !next.atLineEnd) then ([entry], blank, after)
          else
            let (entries, last, cursor) :=
              readIndented containers fuel (blankLine? next.rest).isSome next
            (entry :: entries, last, cursor)

/-- The lines of indented code without the blank ones at the end. -/
def codeText (entries : List (List Char × Bool)) : List Char :=
  ((entries.reverse.dropWhile Prod.snd).reverse.map Prod.fst).flatten

/-- Reads the lines of fenced code. `indent` columns in front of each line are those of the fence
and do not count. -/
def readFenced (mark : Char) (marks indent : Nat) (containers : List Container) :
    Nat → Cursor → List Char × Cursor
  | 0, cursor => ([], cursor)
  | fuel + 1, cursor =>
      match skipAllMarks? containers cursor.startLine with
      | none => ([], cursor)
      | some next =>
          let next := (next.skipColumns indent).1
          let (probe, missing) := next.skipColumns (4 - indent)
          let closing := if missing > 0 then closingFence? mark marks probe.rest else none
          match closing with
          | some length =>
              let after := probe.advance length
              ([], after.advance ((blankLine? after.rest).getD 0))
          | none =>
              let (line, length) := verbatimLine next.rest
              if length = 0 then ([], next)
              else
                let (more, last) :=
                  readFenced mark marks indent containers fuel (next.advance length)
                (spareSpaces next ++ line ++ more, last)

/-- Reads fenced code. The cursor stands at the fence. -/
def readFence (mark : Char) (marks indent : Nat) (containers : List Container)
    (cursor : Cursor) : Block × Cursor :=
  let start := cursor.advance marks
  let start := start.advance (runLength isLineSpace start.rest)
  let length := lineFeedLength start.rest
  let info := Text.dropEndWhile isSpace (start.rest.take length)
  let (text, last) :=
    readFenced mark marks indent containers (start.rest.length + 1) (start.advance length)
  (.code (some (unescape false info)) text, last)

/-- The text of a heading line without the number signs that close it. -/
def headingText (line : List Char) : List Char :=
  let trimmed := Text.dropEndWhile (fun c => c == ' ' || c == '\n' || c == '\r') line
  let body := Text.dropEndWhile (· == '#') trimmed
  if body.isEmpty then []
  else
    let inner := Text.dropEndWhile (· == ' ') body
    if inner.length < body.length then inner else trimmed

def readHeading (level : Nat) (cursor : Cursor) : Block × Cursor :=
  let start := cursor.advance level
  let start := start.advance (runLength isLineSpace start.rest)
  let length := contentLength start.rest
  let after := start.advance length
  (.heading level ⟨start.before, headingText (start.rest.take length), [], false⟩,
    after.advance ((lineEnding? after.rest).getD 0))

/-- Reads the rows of a table, up to a line that opens another block. -/
def readRows (containers : List Container) : Nat → Cursor → List (List Prose) × Cursor
  | 0, cursor => ([], cursor)
  | fuel + 1, cursor =>
      match skipAllMarks? containers cursor.startLine with
      | none => ([], cursor)
      | some next =>
          let start := next.skipIndent
          if interruptsParagraph true start.rest then ([], cursor)
          else
            let length := contentLength start.rest
            match rowCells start.before (start.rest.take length) with
            | [] => ([], cursor)
            | cells =>
                let after := start.advance length
                let (rows, last) :=
                  readRows containers fuel (after.advance ((lineEnding? after.rest).getD 0))
                (cells :: rows, last)

/-- Gives a row as many cells as the table has columns. -/
def fitRow (columns : Nat) (row : List Prose) : List Prose :=
  row.take columns ++ List.replicate (columns - row.length) ⟨' ', [], [], true⟩

/-- The table whose head is the line at the cursor. -/
def readTable? (containers : List Container) (cursor : Cursor) : Option (Block × Cursor) :=
  (tableColumns? containers cursor).map fun (columns, body) =>
    let head := rowCells cursor.before (cursor.rest.take (contentLength cursor.rest))
    let (rows, last) := readRows containers (body.rest.length + 1) body
    let fit := fitRow columns.length
    (.table columns (fit head) (rows.map fit), last)

/-- The lines of a paragraph read so far, each list in reverse. -/
structure ParagraphLines where
  text : List Char
  breaks : List Break

def ParagraphLines.toProse (lines : ParagraphLines) (before : Char) : Prose :=
  ⟨before, (lines.text.dropWhile isLineSpace).reverse, lines.breaks.reverse, false⟩

/-- Reads on from the end of a line of prose. The first part of the result is the level of the
heading that an underline makes of the paragraph. -/
def readProse (containers : List Container) :
    Nat → ParagraphLines → Cursor → Option Nat × ParagraphLines × Cursor
  | 0, lines, cursor => (none, lines, cursor)
  | fuel + 1, lines, cursor =>
      let ending := (lineEnding? cursor.rest).getD 0
      let next := cursor.advance ending
      let (count, marked) := skipMarks containers next.startLine
      let inContainer := count == containers.length
      let (start, missing) := marked.skipColumns 4
      let level := if missing > 0 && inContainer then underline? start.rest else none
      match level with
      | some (level, length) => (some level, lines, start.advance length)
      | none =>
          if missing > 0 && endsParagraph containers inContainer start.rest then (none, lines, next)
          else
            let start := start.skipIndent
            if start.atLineEnd then (none, lines, next)
            else
              let marks := next.rest.take (next.rest.length - marked.rest.length)
              let after := start.advance (contentLength start.rest)
              let text := marked.rest.take (marked.rest.length - after.rest.length)
              readProse containers fuel
                ⟨text.reverse ++ '\n' :: lines.text,
                  ⟨cursor.rest.take ending, marks⟩ :: lines.breaks⟩ after

/-- Reads a paragraph, or the heading or table that its following line makes of it. -/
def readParagraph (containers : List Container) (cursor : Cursor) : Block × Cursor :=
  match readTable? containers cursor with
  | some table => table
  | none =>
      let length := contentLength cursor.rest
      let first : ParagraphLines := ⟨(cursor.rest.take length).reverse, []⟩
      let (level, lines, last) :=
        readProse containers (cursor.rest.length + 1) first (cursor.advance length)
      let prose := lines.toProse cursor.before
      match level with
      | some level => (.heading level prose, last)
      | none => (.paragraph prose, last)

end Bindery.Markdown
