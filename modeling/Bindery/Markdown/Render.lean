import Bindery.Markdown.FootnoteLink

/-!
# HTML of a Markdown document

Writes events as HTML. Block elements begin on a line of their own.
-/

set_option autoImplicit false

namespace Bindery.Markdown

def escapeBody (text : List Char) : List Char :=
  text.flatMap fun c =>
    if c == '&' then "&amp;".toList
    else if c == '<' then "&lt;".toList
    else if c == '>' then "&gt;".toList
    else [c]

def escapeAttribute (text : List Char) : List Char :=
  text.flatMap fun c => if c == '"' then "&quot;".toList else escapeBody [c]

/-- The characters that an address may hold as they are. -/
def isAddressChar (c : Char) : Bool :=
  c.isAlphanum || "!#$%()*+,-./:;=?@_~".toList.contains c

def hexChar (n : Nat) : Char :=
  if n < 10 then Char.ofNat (48 + n) else Char.ofNat (55 + n)

/-- Escapes an address inside an attribute: other characters are written byte by byte as
percent signs and hexadecimal digits. -/
def escapeAddress (text : List Char) : List Char :=
  text.flatMap fun c =>
    if isAddressChar c then [c]
    else if c == '&' then "&amp;".toList
    else if c == '\'' then "&#x27;".toList
    else (String.singleton c).toUTF8.toList.flatMap fun byte =>
      ['%', hexChar (byte.toNat / 16), hexChar (byte.toNat % 16)]

/-- The HTML written so far, in reverse, and where in a table the writer is. `lineStart` tells that
the last thing written ends a line. -/
structure Writer where
  output : List Char
  lineStart : Bool
  columns : List Alignment
  inBody : Bool
  cell : Nat

namespace Writer

def empty : Writer := ⟨[], true, [], false, 0⟩

def write (writer : Writer) (text : List Char) : Writer :=
  match text.getLast? with
  | none => writer
  | some last =>
      { writer with output := text.reverse ++ writer.output, lineStart := last == '\n' }

def writeString (writer : Writer) (text : String) : Writer := writer.write text.toList

/-- Writes text that begins on a line of its own. -/
def writeBlock (writer : Writer) (text : String) : Writer :=
  if writer.lineStart then writer.writeString text
  else (writer.write ['\n']).writeString text

def writeTitle (writer : Writer) (target : Target) : Writer :=
  if target.title.isEmpty then writer
  else (writer.writeString "\" title=\"").write (escapeAttribute target.title)

def styleTag : Style → String
  | .emphasis => "em"
  | .strong => "strong"
  | .strikethrough => "del"

def cellTag (writer : Writer) : String := if writer.inBody then "td" else "th"

def alignmentStyle : Option Alignment → String
  | some .left => " style=\"text-align: left\""
  | some .center => " style=\"text-align: center\""
  | some .right => " style=\"text-align: right\""
  | _ => ""

def start (writer : Writer) : Tag → Writer
  | .paragraph => writer.writeBlock "<p>"
  | .heading level => writer.writeBlock ("<h" ++ toString level ++ ">")
  | .quote => writer.writeBlock "<blockquote>\n"
  | .code info =>
      let language := ((info.getD []).takeWhile (· != ' '))
      if language.isEmpty then writer.writeBlock "<pre><code>"
      else
        ((writer.writeBlock "<pre><code class=\"language-").write
          (escapeAttribute language)).writeString "\">"
  | .list none => writer.writeBlock "<ul>\n"
  | .list (some 1) => writer.writeBlock "<ol>\n"
  | .list (some number) => writer.writeBlock ("<ol start=\"" ++ toString number ++ "\">\n")
  | .item => writer.writeBlock "<li>"
  | .footnote _ => writer
  | .table columns => { writer.writeString "<table>" with columns := columns, inBody := false }
  | .tableHead => { writer.writeString "<thead><tr>" with inBody := false, cell := 0 }
  | .tableRow => { writer.writeString "<tr>" with cell := 0 }
  | .tableCell =>
      writer.writeString
        ("<" ++ writer.cellTag ++ alignmentStyle writer.columns[writer.cell]? ++ ">")
  | .styled style => writer.writeString ("<" ++ styleTag style ++ ">")
  | .link mail target =>
      let opened := writer.writeString (if mail then "<a href=\"mailto:" else "<a href=\"")
      ((opened.write (escapeAddress target.destination)).writeTitle target).writeString "\">"
  | .image target =>
      ((writer.writeString "<img src=\"").write (escapeAddress target.destination)).writeString
        "\" alt=\""

def finish (writer : Writer) : Tag → Writer
  | .paragraph => writer.writeString "</p>\n"
  | .heading level => writer.writeString ("</h" ++ toString level ++ ">\n")
  | .quote => writer.writeString "</blockquote>\n"
  | .code _ => writer.writeString "</code></pre>\n"
  | .list none => writer.writeString "</ul>\n"
  | .list (some _) => writer.writeString "</ol>\n"
  | .item => writer.writeString "</li>\n"
  | .footnote _ => writer
  | .table _ => writer.writeString "</tbody></table>\n"
  | .tableHead => { writer.writeString "</tr></thead><tbody>\n" with inBody := true }
  | .tableRow => writer.writeString "</tr>\n"
  | .tableCell =>
      { writer.writeString ("</" ++ writer.cellTag ++ ">") with cell := writer.cell + 1 }
  | .styled style => writer.writeString ("</" ++ styleTag style ++ ">")
  | .link _ _ => writer.writeString "</a>"
  | .image target => (writer.writeTitle target).writeString "\" />"

/-- Writes an event inside the alternative text of an image, where no element has marks. -/
def alternative (writer : Writer) : Event → Writer
  | .text content => writer.write (escapeAttribute content)
  | .code content => writer.write (escapeAttribute content)
  | .html content => writer.write (escapeAttribute content)
  | .softBreak => writer.write [' ']
  | .hardBreak => writer.write [' ']
  | .rule => writer.write [' ']
  | _ => writer

def event (writer : Writer) : Event → Writer
  | .start tag => writer.start tag
  | .finish tag => writer.finish tag
  | .text content => { writer.write (escapeBody content) with lineStart := content.getLast? == some '\n' }
  | .code content =>
      ((writer.writeString "<code>").write (escapeBody content)).writeString "</code>"
  | .html content => writer.write content
  | .footnoteReference _ => writer
  | .softBreak => writer.write ['\n']
  | .hardBreak => writer.writeString "<br />\n"
  | .rule => writer.writeBlock "<hr />\n"

/-- Writes the events. `depth` counts the elements open inside the alternative text of an image,
itself included; it is zero outside. -/
def events (writer : Writer) : Nat → List Event → Writer
  | _, [] => writer
  | 0, .start (.image target) :: rest => events (writer.start (.image target)) 1 rest
  | 0, other :: rest => events (writer.event other) 0 rest
  | depth + 1, .start _ :: rest => events writer (depth + 2) rest
  | 1, .finish tag :: rest => events (writer.finish tag) 0 rest
  | depth + 2, .finish _ :: rest => events writer (depth + 1) rest
  | depth + 1, other :: rest => events (writer.alternative other) (depth + 1) rest

end Writer

def renderEvents (events : List Event) : List Char :=
  (Writer.empty.events 0 events).output.reverse

def render (text : String) : String :=
  String.ofList (renderEvents (linkFootnotes (Document.ofText text.toList).events))

end Bindery.Markdown
