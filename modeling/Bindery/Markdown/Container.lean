import Bindery.Markdown.Block
import Bindery.Markdown.Opening
import Bindery.Markdown.RawHtml

/-!
# Containers

The blocks that hold other blocks, the marks by which a line belongs to them,
and the openings that end a paragraph without a blank line.
-/

set_option autoImplicit false

namespace Bindery.Markdown

inductive Container where
  | quote
  | list (mark : Char) (start : Nat) (tight : Bool)
  | item (indent : Nat)
  | footnote (label : List Char)
  deriving Repr, DecidableEq

namespace Container

/-- Passes the mark of the container at the beginning of a line. Items and footnotes are marked by
indentation, which a blank line need not have. -/
def skipMark? (container : Container) (cursor : Cursor) : Option Cursor :=
  match container with
  | .quote =>
      ((cursor.skipColumns 3).1.skipChar? '>').map fun after =>
        (after.skipColumns 1).1
  | .list .. => some cursor
  | .item indent => indented indent
  | .footnote _ => indented 4
where
  indented (columns : Nat) : Option Cursor :=
    let (after, missing) := cursor.skipColumns columns
    if missing = 0 || after.atLineEnd then some after else none

def toBlock (container : Container) (children : List Block) : Block :=
  match container with
  | .quote => .quote children
  | .list mark start tight =>
      .list (if mark == '.' || mark == ')' then some start else none) tight children
  | .item _ => .item children
  | .footnote label => .footnote label children

end Container

/-- Passes the marks of the containers, outermost first, as far as the line has them. The first
part tells how many were found. -/
def skipMarks : List Container → Cursor → Nat × Cursor
  | [], cursor => (0, cursor)
  | container :: inner, cursor =>
      match container.skipMark? cursor with
      | none => (0, cursor)
      | some next =>
          let (count, after) := skipMarks inner next
          (count + 1, after)

/-- The cursor behind the marks of all containers, for a line that has them all. -/
def skipAllMarks? (containers : List Container) (cursor : Cursor) : Option Cursor :=
  let (count, after) := skipMarks containers cursor
  if count = containers.length then some after else none

/-- Whether the text opens a list item that ends the paragraph before it. Within the container
of the paragraph only a bullet or the number one does, and only if text follows in that line or
the next. -/
def interruptingItem (inContainer : Bool) (text : List Char) : Bool :=
  let digits := (text.take 9).takeWhile Char.isDigit
  let mark := match digits, text with
    | [], c :: rest => if c == '-' || c == '+' || c == '*' then some (true, rest) else none
    | _ :: _, _ =>
        match text.drop digits.length with
        | c :: rest =>
            if c == '.' || c == ')' then
              some (digits.foldl (fun n d => n * 10 + (d.toNat - 48)) 0 == 1, rest)
            else none
        | [] => none
    | [], [] => none
  match mark with
  | none => false
  | some (first, rest) =>
      let open? := match rest with
        | [] => true
        | c :: _ => c == ' ' || c == '\t' || c == '\n' || c == '\r'
      let emptyItem := match blankLine? rest with
        | none => false
        | some line => (blankLine? (rest.drop line)).isSome
      open? && (!inContainer || (first && !emptyItem))

/-- Whether the text, at the beginning of a line, ends the paragraph before it. -/
def interruptsParagraph (inContainer : Bool) (text : List Char) : Bool :=
  (lineEnding? text).isSome || (ruleLength? text).isSome || (headingLevel? text).isSome ||
    (fence? text).isSome || text.head? == some '>' || interruptingItem inContainer text ||
    (match text with
      | '<' :: rest => (interruptingHtml? rest).isSome
      | _ => false) ||
    (footnoteOpening? false text).isSome

/-- The columns of the table whose head is the line at the cursor, and the cursor behind the
delimiter row. The row follows the head and has as many columns. -/
def tableColumns? (containers : List Container) (cursor : Cursor) :
    Option (List Alignment × Cursor) :=
  let length := contentLength cursor.rest
  let after := cursor.advance length
  match headCells cursor.before (cursor.rest.take length), lineEnding? after.rest with
  | 0, _ => none
  | _, none => none
  | _, some 0 => none
  | cells, some ending =>
      match skipAllMarks? containers (after.advance ending).startLine with
      | none => none
      | some next =>
          match delimiterRow? next.rest with
          | none => none
          | some columns =>
              if columns.length = cells then
                let last := next.advance (contentLength next.rest)
                some (columns, last.advance ((lineEnding? last.rest).getD 0))
              else none

/-- Whether a paragraph in the containers ends before the text: another block starts there, or a
table whose head begins with a bar. -/
def endsParagraph (containers : List Container) (inContainer : Bool) (text : List Char) : Bool :=
  interruptsParagraph inContainer text ||
    (text.head? == some '|' && (tableColumns? containers (Cursor.ofText text)).isSome)

/-- A line of raw HTML that is one complete tag. -/
def startsTagLine : List Char → Bool
  | '<' :: rest =>
      match tagEnd? false rest with
      | some after => (blankLine? after).isSome
      | none => false
  | _ => false

/-- Passes the marks at the beginning of a line inside a definition. A line that opens a block of
its own ends the definition. -/
def nextDefinitionLine (containers : List Container) (text : List Char) : Option (List Char) :=
  let (count, after) := skipMarks containers (Cursor.ofText text)
  let inContainer := count == containers.length
  if endsParagraph containers inContainer after.rest ||
      (inContainer && (underline? after.rest).isSome) then none
  else some after.rest

/-- Passes white space inside a definition and counts the line endings in it; two of them end the
definition. -/
def skipDefinitionSpace (containers : List Container) (text : List Char) :
    Option (List Char × Nat) :=
  let text := text.dropWhile isLineSpace
  match lineEnding? text with
  | none => some (text, 0)
  | some ending =>
      let (count, after) := skipMarks containers (Cursor.ofText (text.drop ending))
      if count < containers.length && endsParagraph containers false after.rest then none
      else
        let line := after.rest.dropWhile isLineSpace
        if (lineEnding? line).isSome then none else some (line, 1)

/-- The definition of a link target at the beginning of a paragraph: the label, the target, and
the text behind them. A title must end its line; where it stands on a line of its own and does
not, the definition ends before it. -/
def targetDefinition? (containers : List Container) (text : List Char) :
    Option (List Char × Target × List Char) :=
  match text with
  | '[' :: body =>
      match label? (nextDefinitionLine containers) false body with
      | some (label, ':' :: after) =>
          match skipDefinitionSpace containers after with
          | none => none
          | some (start, _) =>
              match destination? start with
              | none => none
              | some (destination, after) =>
                  if after.length = start.length then none
                  else
                    let bare := some (label, ⟨unescape false destination, []⟩, after)
                    match skipDefinitionSpace containers after with
                    | none => bare
                    | some (line, endings) =>
                        if endings = 0 && line.length == after.length then none
                        else
                          let titled := do
                            let (title, behind) ← definitionTitle?
                              (fun rest => some (skipMarks containers (Cursor.ofText rest)).2.rest)
                              line
                            if (blankLine? behind).isSome then
                              pure (label, (⟨unescape false destination, unescape false title⟩ : Target),
                                behind)
                            else none
                          match titled with
                          | some found => some found
                          | none => if endings = 0 then none else bare
      | _ => none
  | _ => none

end Bindery.Markdown
