import Bindery.Text.CaseFold
import Bindery.Textile.Passthrough
import Bindery.Textile.Phrase

/-!
# Blocks

Blank lines separate blocks, and a stand-in alone on its line is a block of its
own. What a block starts with decides what it is.
-/

set_option autoImplicit false

namespace Bindery.Textile

/-- A kind of line, as far as it bounds blocks. -/
inductive LineKind where
  | blank
  | passed
  | ordinary
  deriving Repr, DecidableEq

def lineKind (line : List Char) : LineKind :=
  if isStandIn (Text.trim line) then .passed
  else if Text.allBlank line then .blank
  else .ordinary

/-- The block of the lines read so far, which are in reverse order, unless there are none. -/
def closeBlock (lines : List (List Char)) : List (List Char) :=
  if lines.isEmpty then [] else [Text.join ['\n'] lines.reverse]

def groupLines : List (List Char) → List (List Char) → List (List Char)
  | current, [] => closeBlock current
  | current, line :: rest =>
      match lineKind line with
      | .ordinary => groupLines (line :: current) rest
      | .blank => closeBlock current ++ groupLines [] rest
      | .passed => closeBlock current ++ Text.trim line :: groupLines [] rest

def blocks (text : List Char) : List (List Char) := groupLines [] (Text.lines text)

/-- The rest of a block behind its sign, which ends with a dot and blanks. -/
def afterSign? (sign : List Char) (text : List Char) : Option (List Char) :=
  match Text.dropStart? (sign ++ ['.']) text with
  | some (c :: rest) => if Text.isBlank c then some (Text.trimStart rest) else none
  | _ => none

def heading? : List Char → Option (Char × List Char)
  | 'h' :: level :: rest =>
      if '1' ≤ level && level ≤ '6' then (afterSign? [] rest).map fun content => (level, content)
      else none
  | _ => none

def note? : List Char → Option (List Char × List Char)
  | 'f' :: 'n' :: rest =>
      let digits := rest.takeWhile Text.isDecimalDigit
      if digits.isEmpty then none
      else (afterSign? [] (rest.drop digits.length)).map fun content => (digits, content)
  | _ => none

/-- The elements that make a block of markup when it starts with one of their tags. -/
def blockTagNames : List String :=
  ["div", "pre", "table", "ul", "ol", "dl", "blockquote", "h1", "h2", "h3", "h4", "h5", "h6",
    "p", "section", "figure", "hr"]

/-- Whether the name comes first, in any case, and ends there. -/
def startsWithTagName (name : String) (text : List Char) : Bool :=
  (text.take name.length).map Text.foldChar = name.toList &&
    match text.drop name.length with
    | c :: _ => Text.isBlank c || c = '>' || c = '/'
    | [] => false

def isMarkup : List Char → Bool
  | '<' :: '/' :: rest => blockTagNames.any (startsWithTagName · rest)
  | '<' :: rest => blockTagNames.any (startsWithTagName · rest)
  | _ => false

def item? : List Char → Option (List Char)
  | mark :: c :: rest =>
      if (mark = '*' || mark = '#') && Text.isBlank c then some (Text.trimStart rest) else none
  | _ => none

/-- The items of a list; every line has to be one. -/
def items? (text : List Char) : Option (List (List Char)) := (Text.lines text).mapM item?

def renderItem (content : List Char) : List Char :=
  "\t<li>".toList ++ renderInline content ++ "</li>\n".toList

def renderList (ordered : Bool) (items : List (List Char)) : List Char :=
  let name := if ordered then "ol" else "ul"
  element name ('\n' :: items.flatMap renderItem)

/-- Each line on its own, with breaks between them. -/
def renderLines (text : List Char) : List Char :=
  Text.join "<br />\n".toList ((Text.lines text).map renderInline)

def renderNote (number content : List Char) : List Char :=
  "<p class=\"footnote\" id=\"fn".toList ++ number ++ "\"><a href=\"#fnr".toList ++ number ++
    "\"><sup>".toList ++ number ++ "</sup></a> ".toList ++ renderInline content ++ "</p>".toList

def renderParagraph (text : List Char) : List Char := element "p" (renderLines text)

def renderQuote (text : List Char) : List Char :=
  "<blockquote>\n".toList ++ renderParagraph text ++ "\n</blockquote>".toList

def renderBlock (block : List Char) : List Char :=
  let text := Text.trimStart block
  if isStandIn text || isMarkup text then block
  else
    match heading? text with
    | some (level, content) => element ("h".push level) (renderInline content)
    | none =>
        match note? text with
        | some (number, content) => renderNote number content
        | none =>
            match afterSign? ['b', 'q'] text with
            | some content => renderQuote content
            | none =>
                match items? text with
                | some items => renderList (text.head? = some '#') items
                | none => renderParagraph ((afterSign? ['p'] text).getD text)

end Bindery.Textile
