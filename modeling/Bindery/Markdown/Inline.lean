import Bindery.Markdown.Block
import Bindery.Markdown.Emphasis
import Bindery.Markdown.RawHtml

/-!
# Inline content

Reads prose from left to right. Code, addresses and raw HTML bind more tightly
than brackets, and brackets more tightly than emphasis.
-/

set_option autoImplicit false

namespace Bindery.Markdown

/-- An open bracket: what precedes it, in reverse, and the text behind it. Links do not nest, so
the brackets around a link are no longer active. -/
structure Bracket where
  image : Bool
  active : Bool
  before : List Piece
  text : List Char

def Bracket.opening (bracket : Bracket) : Piece :=
  .node (.text (if bracket.image then ['!', '['] else ['[']))

/-- `items` follow the innermost bracket, in reverse. `previous` is the last character passed and
`breaks` are the line breaks still to come. -/
structure Reader where
  previous : Char
  items : List Piece
  brackets : List Bracket
  breaks : List Break

namespace Reader

def emit (reader : Reader) (content : Inline) : Reader :=
  { reader with items := .node content :: reader.items }

/-- The items of the innermost bracket behind its marks, which become text. -/
def opened (reader : Reader) (bracket : Bracket) : List Piece :=
  reader.items ++ bracket.opening :: bracket.before

/-- Makes text of every open bracket. -/
def closeAll (reader : Reader) : List Piece :=
  reader.brackets.foldl (fun items bracket => items ++ bracket.opening :: bracket.before)
    reader.items

/-- Moves over text that was read as a whole. -/
def pass (reader : Reader) (passed : List Char) : Reader :=
  { reader with
    previous := (passed.getLast?).getD reader.previous
    breaks := reader.breaks.drop (passed.count '\n') }

end Reader

/-- The text as it was written: line endings and, if asked for, the marks of containers are put
back in. -/
def asWritten (withMarks : Bool) : List Break → List Char → List Char
  | _, [] => []
  | line :: breaks, '\n' :: rest =>
      line.ending ++ (if withMarks then line.marks else []) ++ asWritten withMarks breaks rest
  | breaks, c :: rest => c :: asWritten withMarks breaks rest

/-- The text before the next run of exactly `count` back quotes, and the text behind the run. -/
def codeEnd? (count : Nat) : Nat → List Char → Option (List Char × List Char)
  | 0, _ => none
  | fuel + 1, text =>
      let body := text.takeWhile (· != '\x60')
      let rest := text.drop body.length
      let run := runLength (· == '\x60') rest
      if run = 0 then none
      else if run = count then some (body, rest.drop run)
      else
        (codeEnd? count fuel (rest.drop run)).map fun (more, after) =>
          (body ++ rest.take run ++ more, after)

/-- In a table a bar is written with a backslash, also in code. -/
def unescapeBars : List Char → List Char
  | [] => []
  | '\\' :: '|' :: rest => '|' :: unescapeBars rest
  | c :: rest => c :: unescapeBars rest

/-- The content of a code span: line endings are spaces, and of a space at both ends one is
dropped. -/
def codeContent (inTable : Bool) (body : List Char) : List Char :=
  let body := body.map fun c => if c == '\n' then ' ' else c
  let body := if inTable then unescapeBars body else body
  if body.head? == some ' ' && body.getLast? == some ' ' && !body.all (· == ' ') then
    (body.drop 1).dropLast
  else body

/-- The characters that stand for themselves wherever they are. -/
def isPlainChar (c : Char) : Bool :=
  !(isSpace c || c == '\\' || c == '*' || c == '_' || c == '~' || c == '\x60' || c == '<' ||
    c == '!' || c == '[' || c == ']' || c == '&')

/-- The name of a bracket that ends here, if its text is a label. -/
def ownLabel? (inTable : Bool) (bracket : Bracket) (rest : List Char) : Option Label :=
  let inner := bracket.text.take (bracket.text.length - rest.length)
  match bracketLabel? some inTable ('[' :: inner) with
  | some (label, []) => some label
  | _ => none

/-- What a closing bracket makes of the text since the opening one, and the text behind it. -/
inductive Closing where
  | target (target : Target) (after : List Char)
  | footnote (label : List Char)
  | nothing

/-- A target in parentheses is tried first, then a label, then the bracket's own text as a label.
The text starts behind the closing bracket. -/
def closing (definitions : Definitions) (inTable : Bool) (bracket : Bracket) (rest : List Char) :
    Closing :=
  match inlineTarget? inTable rest with
  | some (target, after) => .target target after
  | none =>
      let named (label : List Char) (after : List Char) : Closing :=
        match definitions.target? label with
        | some target => .target target after
        | none => .nothing
      let own (after : List Char) : Closing :=
        match ownLabel? inTable bracket rest with
        | some (.footnote label) =>
            if definitions.hasFootnote label then .footnote label else .nothing
        | some (.link label) => named label after
        | none => .nothing
      match rest with
      | '[' :: ']' :: after => own after
      | _ =>
          match bracketLabel? some inTable rest with
          | some (.link label, after) => named label after
          | _ => own rest

def closeBracket (definitions : Definitions) (inTable : Bool) (reader : Reader)
    (rest : List Char) : Reader × List Char :=
  match reader.brackets with
  | [] => ((reader.emit (.text [']'])).pass [']'], rest)
  | bracket :: outer =>
      let asText := ({ reader with
        items := .node (.text [']']) :: reader.opened bracket
        brackets := outer }.pass [']'], rest)
      if !bracket.active then asText
      else
        match closing definitions inTable bracket rest with
        | .nothing => asText
        | .footnote label =>
            let items :=
              if bracket.image then .node (.text ['!']) :: bracket.before else bracket.before
            let reader := { reader with items := items, brackets := outer }
            ({ reader with items := .node (.footnote label) :: reader.closeAll, brackets := [] }.pass
              [']'], rest)
        | .target target after =>
            let children := resolveEmphasis reader.items.reverse
            let content : Inline :=
              if bracket.image then .image target children else .link false target children
            let outer :=
              if bracket.image then outer
              else outer.map fun other => { other with active := other.active && other.image }
            ({ reader with items := .node content :: bracket.before, brackets := outer }.pass
              (']' :: rest.take (rest.length - after.length)), after)

/-- Handles a less-than sign. The text starts behind it. -/
def readAngle (reader : Reader) (rest : List Char) : Reader × List Char :=
  let passed (after : List Char) : List Char := '<' :: rest.take (rest.length - after.length)
  match autolinkAddress? rest with
  | some (address, after) =>
      ((reader.emit (.link false ⟨address, []⟩ [.text address])).pass (passed after), after)
  | none =>
      match autolinkMail? rest with
      | some (address, after) =>
          ((reader.emit (.link true ⟨address, []⟩ [.text address])).pass (passed after), after)
      | none =>
          match tagEnd? true rest with
          | some after =>
              ((reader.emit (.html (asWritten false reader.breaks (passed after)))).pass
                (passed after), after)
          | none =>
              match markupSection? rest with
              | some after =>
                  ((reader.emit (.html (asWritten true reader.breaks (passed after)))).pass
                    (passed after), after)
              | none => ((reader.emit (.text ['<'])).pass ['<'], rest)

/-- Handles a line break. The text starts behind the line feed; the blanks there are dropped. -/
def readBreak (hard : Bool) (reader : Reader) (rest : List Char) : Reader × List Char :=
  let indent := rest.takeWhile fun c => c == ' ' || c == '\t'
  let written := match reader.breaks with
    | line :: _ => line.ending ++ line.marks ++ indent
    | [] => '\n' :: indent
  ({ reader.emit (if hard then .hardBreak else .softBreak) with
      previous := (written.getLast?).getD '\n'
      breaks := reader.breaks.drop 1 }, rest.drop indent.length)

def readBackslash (inTable : Bool) (reader : Reader) (rest : List Char) : Reader × List Char :=
  match rest with
  | '\n' :: rest => readBreak true reader rest
  | c :: rest =>
      if Text.isAsciiPunctuation c || (inTable && c == '|') then
        ((reader.emit (.text [c])).pass ['\\', c], rest)
      else ((reader.emit (.text ['\\'])).pass ['\\'], c :: rest)
  | [] => ((reader.emit (.text ['\\'])).pass ['\\'], [])

/-- Handles a run of marks that may be emphasis. More than two tildes are text. -/
def readRun (mark : Char) (reader : Reader) (text : List Char) : Reader × List Char :=
  let count := runLength (· == mark) text
  let rest := text.drop count
  let run := DelimiterRun.between mark count reader.previous ((rest.head?).getD '\n')
  let marks := text.take count
  if (run.canOpen || run.canClose) && (mark != '~' || count ≤ 2) then
    ({ reader with items := .run run :: reader.items }.pass marks, rest)
  else ((reader.emit (.text marks)).pass marks, rest)

def readCode (inTable : Bool) (reader : Reader) (text : List Char) : Reader × List Char :=
  let count := runLength (· == '\x60') text
  let rest := text.drop count
  match codeEnd? count (rest.length + 1) rest with
  | some (body, after) =>
      ((reader.emit (.code (codeContent inTable body))).pass
        (text.take (text.length - after.length)), after)
  | none => ((reader.emit (.text (text.take count))).pass (text.take count), rest)

/-- Handles blanks within or at the end of a line. Two of them make a hard break. -/
def readBlanks (reader : Reader) (text : List Char) : Reader × List Char :=
  let count := runLength isLineSpace text
  match text.drop count with
  | '\n' :: rest => readBreak (2 ≤ count) reader rest
  | rest => ((reader.emit (.text (text.take count))).pass (text.take count), rest)

/-- Handles what stands at the front of the text. -/
def readPiece (definitions : Definitions) (inTable : Bool) (reader : Reader) :
    List Char → Reader × List Char
  | [] => (reader, [])
  | c :: rest =>
      if c == '\n' then readBreak false reader rest
      else if isLineSpace c then readBlanks reader (c :: rest)
      else if c == '\\' then readBackslash inTable reader rest
      else if c == '*' || c == '_' || c == '~' then readRun c reader (c :: rest)
      else if c == '\x60' then readCode inTable reader (c :: rest)
      else if c == '<' && rest.head? != some '\\' then readAngle reader rest
      else if c == '!' && rest.head? == some '[' then
        ({ reader with
            items := []
            brackets := ⟨true, true, reader.items, rest.drop 1⟩ :: reader.brackets }.pass
          ['!', '['], rest.drop 1)
      else if c == '[' then
        ({ reader with
            items := []
            brackets := ⟨false, true, reader.items, rest⟩ :: reader.brackets }.pass ['['], rest)
      else if c == ']' then closeBracket definitions inTable reader rest
      else
        match characterReference? (c :: rest) with
        | some (value, after) =>
            ((reader.emit (.text value)).pass ((c :: rest).take (rest.length + 1 - after.length)),
              after)
        | none =>
            let plain := c :: rest.takeWhile isPlainChar
            ((reader.emit (.text plain)).pass plain, (c :: rest).drop plain.length)

def readPieces (definitions : Definitions) (inTable : Bool) :
    Nat → Reader → List Char → Reader
  | 0, reader, _ => reader
  | _, reader, [] => reader
  | fuel + 1, reader, text =>
      let (reader, rest) := readPiece definitions inTable reader text
      readPieces definitions inTable fuel reader rest

def Prose.inlines (definitions : Definitions) (prose : Prose) : List Inline :=
  let start : Reader := ⟨prose.before, [], [], prose.breaks⟩
  let reader := readPieces definitions prose.inTable (prose.text.length + 1) start prose.text
  resolveEmphasis reader.closeAll.reverse

end Bindery.Markdown
