import Bindery.Text.Blank
import Bindery.Text.Lines
import Bindery.Text.Substitution
import Bindery.Text.WordChar

/-!
# Rules within a line

The rules are applied one after another to the whole text: escapes, footnote
references, links, code, strong phrases and emphasis.
-/

set_option autoImplicit false

namespace Bindery.Textile

/-! ## Tags and escapes -/

/-- The length of what ends with the first place where the mark stands. -/
def lengthThrough? (mark : List Char) : List Char → Option Nat
  | [] => none
  | c :: rest =>
      if (Text.dropStart? mark (c :: rest)).isSome then some mark.length
      else (lengthThrough? mark rest).map (· + 1)

/-- The length of a comment at the start of the text. -/
def commentLength? (text : List Char) : Option Nat := do
  let inside ← Text.dropStart? "<!--".toList text
  let length ← lengthThrough? "-->".toList inside
  return 4 + length

/-- The length of the rest of a tag behind its opening sign and slash. -/
def tagRestLength? : List Char → Option Nat
  | c :: rest =>
      if c.isAlpha then
        let inside := rest.takeWhile fun d => d != '<' && d != '>'
        match rest.drop inside.length with
        | '>' :: _ => some (inside.length + 2)
        | _ => none
      else none
  | [] => none

/-- The length of a tag at the start of the text. -/
def tagLength? : List Char → Option Nat
  | '<' :: '/' :: rest => (tagRestLength? rest).map (· + 2)
  | '<' :: rest => (tagRestLength? rest).map (· + 1)
  | _ => none

/-- The length of a tag or comment at the start of the text; these are kept as they are. -/
def keptLength? (text : List Char) : Option Nat := (commentLength? text).or (tagLength? text)

/-- The length of the name or number of a reference. -/
def referenceNameLength (text : List Char) : Nat :=
  match text with
  | '#' :: c :: rest =>
      if c = 'x' || c = 'X' then
        let digits := rest.takeWhile fun d =>
          d.isDigit || ('a' ≤ d && d ≤ 'f') || ('A' ≤ d && d ≤ 'F')
        if digits.isEmpty then 0 else digits.length + 2
      else
        let digits := (c :: rest).takeWhile Text.isDecimalDigit
        if digits.isEmpty then 0 else digits.length + 1
  | c :: rest => if c.isAlpha then (rest.takeWhile Char.isAlphanum).length + 1 else 0
  | [] => 0

/-- The length of a character reference at the start of the text. -/
def referenceLength? : List Char → Option Nat
  | '&' :: rest =>
      let length := referenceNameLength rest
      match rest.drop length with
      | ';' :: _ => if length = 0 then none else some (length + 2)
      | _ => none
  | _ => none

/-- Escapes a sign of markup that begins no reference. -/
def escapeSign : Text.Rule := fun text =>
  match text with
  | '&' :: _ =>
      match referenceLength? text with
      | some length => some (length, text.take length)
      | none => some (1, "&amp;".toList)
  | '<' :: _ => some (1, "&lt;".toList)
  | '>' :: _ => some (1, "&gt;".toList)
  | _ => none

/-- A text in pieces: what is kept and what is escaped, by turns as they come. -/
inductive Piece where
  | kept (content : List Char)
  | plain (content : List Char)
  deriving Repr, DecidableEq

def addPlain (c : Char) : List Piece → List Piece
  | .plain content :: rest => .plain (c :: content) :: rest
  | pieces => .plain [c] :: pieces

/-- Splits a text into tags and comments and what stands between them. The number counts
the characters of the last tag that are still to come. -/
def piecesAfter : Nat → List Char → List Piece
  | _, [] => []
  | taken + 1, _ :: rest => piecesAfter taken rest
  | 0, c :: rest =>
      match keptLength? (c :: rest) with
      | some length => .kept ((c :: rest).take length) :: piecesAfter (length - 1) rest
      | none => addPlain c (piecesAfter 0 rest)

def pieces (text : List Char) : List Piece := piecesAfter 0 text

def Piece.escape : Piece → List Char
  | .kept content => content
  | .plain content => Text.substitute escapeSign content

/-- Escapes the signs of markup outside tags and comments; references stay. -/
def escapeText (text : List Char) : List Char := (pieces text).flatMap Piece.escape

/-! ## Phrases -/

def footnoteReference (digits : List Char) : List Char :=
  "<sup class=\"footnote\" id=\"fnr".toList ++ digits ++ "\"><a href=\"#fn".toList ++ digits ++
    "\">".toList ++ digits ++ "</a></sup>".toList

/-- The digits in brackets at the start of the text. -/
def bracketed? : List Char → Option (List Char)
  | '[' :: rest =>
      let digits := rest.takeWhile Text.isDecimalDigit
      match rest.drop digits.length with
      | ']' :: _ => if digits.isEmpty then none else some digits
      | _ => none
  | _ => none

/-- A number in brackets directly behind a visible character is a footnote reference. -/
def footnoteRule : Text.Rule := fun text =>
  match text with
  | c :: rest =>
      if Text.isBlank c then none
      else (bracketed? rest).map fun digits => (digits.length + 3, c :: footnoteReference digits)
  | [] => none

/-- Signs that belong to the sentence when they stand behind an address. -/
def isTrailing (c : Char) : Bool := ['.', ',', ';', ':', '!', '?', ')'].contains c

def address (text : List Char) : List Char :=
  Text.dropEndWhile isTrailing (text.takeWhile fun c => !Text.isBlank c && c != '<')

/-- A quoted text, a colon and an address make a link. -/
def linkRule : Text.Rule := fun text =>
  match text with
  | '"' :: rest =>
      let label := rest.takeWhile (· != '"')
      match rest.drop label.length with
      | '"' :: ':' :: after =>
          let target := address after
          if label.isEmpty || target.isEmpty then none
          else
            some (label.length + target.length + 3,
              "<a href=\"".toList ++ target ++ "\">".toList ++ label ++ "</a>".toList)
      | _ => none
  | _ => none

/-- The content of a phrase between two marks: blank at neither end. -/
def phrase? (mark : Char) : List Char → Option (List Char)
  | c :: rest =>
      if c = mark then
        let content := rest.takeWhile (· != mark)
        if content.length = rest.length then none
        else
          match content.head?, content.getLast? with
          | some first, some last =>
              if Text.isBlank first || Text.isBlank last then none else some content
          | _, _ => none
      else none
  | [] => none

def element (name : String) (content : List Char) : List Char :=
  "<".toList ++ name.toList ++ ">".toList ++ content ++ "</".toList ++ name.toList ++ ">".toList

/-- A phrase between marks becomes an element. -/
def phraseRule (mark : Char) (name : String) : Text.Rule := fun text =>
  (phrase? mark text).map fun content => (content.length + 2, element name content)

/-- What may stand before emphasis. -/
def leadsEmphasis (c : Char) : Bool := Text.isBlank c || c == '(' || c == '>'

/-- Emphasis behind a blank, a bracket or a tag. -/
def emphasisRule : Text.Rule := fun text =>
  match text with
  | c :: rest =>
      if leadsEmphasis c then
        (phrase? '_' rest).map fun content => (content.length + 3, c :: element "em" content)
      else none
  | [] => none

/-- Emphasis; it may also stand at the very start. -/
def emphasise (text : List Char) : List Char :=
  match phrase? '_' text with
  | some content =>
      element "em" content ++ Text.substitute emphasisRule (text.drop (content.length + 2))
  | none => Text.substitute emphasisRule text

/-- A text with the rules within a line applied. -/
def renderInline (text : List Char) : List Char :=
  let text := escapeText text
  let text := Text.substitute footnoteRule text
  let text := Text.substitute linkRule text
  let text := Text.substitute (phraseRule '@' "code") text
  let text := Text.substitute (phraseRule '*' "strong") text
  emphasise text

end Bindery.Textile
