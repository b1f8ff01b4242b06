import Bindery.Markdown.Cursor
import Bindery.Text.Blank
import Bindery.Text.Lines

/-!
# Block openings

What the first characters of a line, behind its indentation, can open: thematic
breaks, headings, fences, list items and raw HTML.
-/

set_option autoImplicit false

namespace Bindery.Markdown

/-- The length of a thematic break: three or more equal marks, blanks between them allowed. -/
def ruleLength? (text : List Char) : Option Nat :=
  match text with
  | mark :: _ =>
      if mark == '*' || mark == '-' || mark == '_' then
        let length := contentLength text
        let line := text.take length
        if line.all (fun c => c == mark || c == ' ' || c == '\t') && 3 ≤ line.count mark then
          some (length + (lineEnding? (text.drop length)).getD 0)
        else none
      else none
  | [] => none

/-- The level of a heading that begins with number signs. -/
def headingLevel? (text : List Char) : Option Nat :=
  let level := runLength (· == '#') text
  if 1 ≤ level ∧ level ≤ 6 ∧ ((text.drop level).head?).all isSpace then some level else none

/-- The level of the heading that an underline makes of the paragraph above it, and the length of
the underline. -/
def underline? (text : List Char) : Option (Nat × Nat) :=
  match text with
  | mark :: _ =>
      if mark == '=' || mark == '-' then
        let marks := runLength (· == mark) text
        (blankLine? (text.drop marks)).map fun blank =>
          (if mark == '=' then 1 else 2, marks + blank)
      else none
  | [] => none

/-- The mark of an opening fence and how often it stands there. The line of a fence of back
quotes holds no other back quote. -/
def fence? (text : List Char) : Option (Char × Nat) :=
  match text with
  | mark :: _ =>
      if mark == '\x60' || mark == '~' then
        let marks := runLength (· == mark) text
        let line := text.take (lineFeedLength text)
        if marks < 3 || (mark == '\x60' && (line.drop marks).contains mark) then none
        else some (mark, marks)
      else none
  | [] => none

/-- The length of a closing fence up to its line ending. The end of the text closes as well. -/
def closingFence? (mark : Char) (marks : Nat) (text : List Char) : Option Nat :=
  if text.isEmpty then some 0
  else
    let found := runLength (· == mark) text
    if found < marks then none
    else
      let spaces := runLength (· == ' ') (text.drop found)
      if (lineEnding? (text.drop (found + spaces))).isSome then some (found + spaces) else none

/-- The mark of a list, its first number, the columns its content is indented by, and the text
behind the mark. -/
structure ListMark where
  mark : Char
  start : Nat
  indent : Nat
  rest : Cursor

/-- Passes the blanks behind a list mark; four or more of them belong to the content. -/
def ListMark.close (mark : Char) (start indent : Nat) (cursor : Cursor) : ListMark :=
  if (blankLine? cursor.rest).isSome then ⟨mark, start, indent, cursor⟩
  else
    let (after, missing) := cursor.skipColumns 4
    if missing = 0 then ⟨mark, start, indent, cursor⟩
    else ⟨mark, start, indent + (4 - missing), after⟩

/-- A list mark is followed by a blank or ends its line. -/
def ListMark.behind? (mark : Char) (start indent : Nat) (cursor : Cursor) : Option ListMark :=
  match cursor.skipColumns? 1 with
  | some after => some (ListMark.close mark start indent after)
  | none => if cursor.atLineEnd then some (ListMark.close mark start indent cursor) else none

/-- The list mark at the cursor, `outer` columns from the margin of the block around it. -/
def listMark? (outer : Nat) (cursor : Cursor) : Option ListMark :=
  match cursor.rest with
  | c :: _ =>
      if c == '-' || c == '+' || c == '*' then
        if (ruleLength? cursor.rest).isSome then none
        else ListMark.behind? c 0 (outer + 2) (cursor.advance 1)
      else
        let digits := cursor.rest.takeWhile Char.isDigit
        let count := digits.length
        match cursor.rest.drop count with
        | mark :: _ =>
            if 1 ≤ count && count ≤ 9 && (mark == '.' || mark == ')') then
              ListMark.behind? mark (digits.foldl (fun n d => n * 10 + (d.toNat - 48)) 0)
                (outer + count + 2) (cursor.advance (count + 1))
            else none
        | [] => none
  | [] => none

/-- What ends a block of raw HTML. -/
inductive RawEnd where
  | after (closing : List Char)
  | blankLine
  deriving Repr, DecidableEq

/-- The elements whose raw HTML lasts until their own end tag. -/
def verbatimElements : List String := ["pre", "style", "script", "textarea"]

/-- The elements that may interrupt a paragraph and last until a blank line. -/
def blockElements : List String := [
    "address", "article", "aside", "base", "basefont", "blockquote", "body", "caption", "center",
    "col", "colgroup", "dd", "details", "dialog", "dir", "div", "dl", "dt", "fieldset",
    "figcaption", "figure", "footer", "form", "frame", "frameset", "h1", "h2", "h3", "h4", "h5",
    "h6", "head", "header", "hr", "html", "iframe", "legend", "li", "link", "main", "menu",
    "menuitem", "nav", "noframes", "ol", "optgroup", "option", "p", "param", "search", "section",
    "summary", "table", "tbody", "td", "tfoot", "th", "thead", "title", "tr", "track", "ul"]

/-- The end tag that closes verbatim HTML opened behind a less-than sign. -/
def verbatimEnd? (text : List Char) : Option (List Char) :=
  (verbatimElements.find? fun name =>
      (text.take name.length).map Char.toLower == name.toList &&
        ((text.drop name.length).head?).all fun c => isSpace c || c == '>').map
    fun name => ['<', '/'] ++ name.toList ++ ['>']

/-- The text that closes a comment, an instruction, a character section or a declaration. -/
def markupEnd? (text : List Char) : Option (List Char) :=
  if (Text.dropStart? "!--".toList text).isSome then some "-->".toList
  else if (Text.dropStart? "?".toList text).isSome then some "?>".toList
  else if (Text.dropStart? "![CDATA[".toList text).isSome then some "]]>".toList
  else
    match text with
    | '!' :: c :: _ => if c.isAlpha then some ['>'] else none
    | _ => none

/-- The raw HTML that a less-than sign opens even below a line of prose. The text starts behind
the sign. -/
def interruptingHtml? (text : List Char) : Option RawEnd :=
  match (verbatimEnd? text).or (markupEnd? text) with
  | some closing => some (.after closing)
  | none =>
      let tail := match text with
        | '/' :: rest => rest
        | _ => text
      let length := runLength Char.isAlphanum tail
      let name := String.ofList ((tail.take length).map Char.toLower)
      let after := tail.drop length
      let ends := match after with
        | [] => true
        | c :: rest => c == ' ' || c == '\t' || c == '\r' || c == '\n' || c == '>' ||
            (c == '/' && rest.head? == some '>')
      if blockElements.contains name && ends then some .blankLine else none

end Bindery.Markdown
