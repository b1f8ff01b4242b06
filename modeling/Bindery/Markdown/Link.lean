import Bindery.Html.Entity
import Bindery.Markdown.Label
import Bindery.Text.Punctuation

/-!
# Link parts

Destinations and titles of links, and the character references and escapes in
them.
-/

set_option autoImplicit false

namespace Bindery.Markdown

/-- A character reference in Markdown: null and what is no character read as the replacement
character. -/
def referencedChar (code : Nat) : Char :=
  if code = 0 ∨ code > 0x10FFFF ∨ (0xD800 ≤ code ∧ code ≤ 0xDFFF) then Char.ofNat 0xFFFD
  else Char.ofNat code

/-- The text that the character reference at the front stands for, and the text behind it. Up to
seven decimal or six hexadecimal digits are read. -/
def characterReference? : List Char → Option (List Char × List Char)
  | '&' :: '#' :: rest =>
      let (base, limit, body) := match rest with
        | 'x' :: body => (16, 6, body)
        | 'X' :: body => (16, 6, body)
        | _ => (10, 7, rest)
      let digit? := if base = 16 then Html.hexDigit? else Html.digit?
      let digits := (body.take limit).takeWhile fun c => (digit? c).isSome
      match digits, body.drop digits.length with
      | _ :: _, ';' :: after => some ([referencedChar (Html.numeral base digit? digits)], after)
      | _, _ => none
  | '&' :: rest =>
      let name := rest.takeWhile Char.isAlphanum
      match rest.drop name.length with
      | ';' :: after => (Html.entity? (name ++ [';'])).map fun value => (value, after)
      | _ => none
  | _ => none

/-- Resolves the escapes and character references of a destination or an information string. -/
def unescape (inTable : Bool) (text : List Char) : List Char :=
  go (text.length + 1) text
where
  go : Nat → List Char → List Char
    | 0, _ => []
    | _, [] => []
    | fuel + 1, '\\' :: c :: rest =>
        match inTable, c, rest with
        | true, '\\', '|' :: rest => '|' :: go fuel rest
        | _, _, _ =>
            if Text.isAsciiPunctuation c then c :: go fuel rest
            else '\\' :: go fuel (c :: rest)
    | fuel + 1, '\r' :: rest => go fuel rest
    | fuel + 1, c :: rest =>
        match characterReference? (c :: rest) with
        | some (value, after) => value ++ go fuel after
        | none => c :: go fuel rest

/-- A destination in angle brackets, which have been passed at the front. -/
def pointedDestination? : List Char → Option (List Char × List Char)
  | [] => none
  | '\n' :: _ => none
  | '\r' :: _ => none
  | '<' :: _ => none
  | '>' :: rest => some ([], rest)
  | '\\' :: c :: rest =>
      if Text.isAsciiPunctuation c then
        (pointedDestination? rest).map fun (text, after) => ('\\' :: c :: text, after)
      else (pointedDestination? (c :: rest)).map fun (text, after) => ('\\' :: text, after)
  | c :: rest => (pointedDestination? rest).map fun (text, after) => (c :: text, after)

/-- A destination without brackets: up to a space or control character, or to the parenthesis
that closes the link. Parentheses in it are balanced and at most `limit + 1` deep. -/
def plainDestination? (limit depth : Nat) : List Char → Option (List Char × List Char)
  | [] => if depth = 0 then some ([], []) else none
  | '\\' :: c :: rest =>
      if Text.isAsciiPunctuation c then
        (plainDestination? limit depth rest).map fun (text, after) => ('\\' :: c :: text, after)
      else
        (plainDestination? limit depth (c :: rest)).map fun (text, after) => ('\\' :: text, after)
  | c :: rest =>
      if c.toNat ≤ 0x20 || (c == ')' && depth == 0) then
        if depth = 0 then some ([], c :: rest) else none
      else if c == '(' then
        if depth > limit then none
        else (plainDestination? limit (depth + 1) rest).map fun (text, after) => (c :: text, after)
      else
        let depth := if c == ')' then depth - 1 else depth
        (plainDestination? limit depth rest).map fun (text, after) => (c :: text, after)

/-- The destination at the front, escapes unresolved, and the text behind it. -/
def destination? : List Char → Option (List Char × List Char)
  | '<' :: rest => pointedDestination? rest
  | text => plainDestination? 32 0 text

def titleEnd? : Char → Option Char
  | '"' => some '"'
  | '\'' => some '\''
  | '(' => some ')'
  | _ => none

/-- The title at the front of a link's text, escapes and references resolved. The white space at
the beginning of a line is no part of it. -/
def title? (inTable : Bool) : List Char → Option (List Char × List Char)
  | [] => none
  | opening :: rest => (titleEnd? opening).bind fun closing => go closing opening (rest.length + 1) rest
where
  go (closing opening : Char) : Nat → List Char → Option (List Char × List Char)
    | 0, _ => none
    | _, [] => none
    | fuel + 1, c :: rest =>
        let prepend (start : List Char) (outcome : Option (List Char × List Char)) :=
          outcome.map fun (text, after) => (start ++ text, after)
        if c == closing then some ([], rest)
        else if c == opening then none
        else if c == '\n' then
          prepend ['\n'] (go closing opening fuel (rest.dropWhile fun d => d == ' ' || d == '\t'))
        else
          match characterReference? (c :: rest), inTable, c, rest with
          | some (value, after), _, _, _ => prepend value (go closing opening fuel after)
          | none, true, '\\', '\\' :: '|' :: rest => prepend ['|'] (go closing opening fuel rest)
          | none, _, '\\', d :: rest =>
              if Text.isAsciiPunctuation d then prepend [d] (go closing opening fuel rest)
              else prepend ['\\'] (go closing opening fuel (d :: rest))
          | none, _, _, _ => prepend [c] (go closing opening fuel rest)

/-- Where a link leads. -/
structure Target where
  destination : List Char
  title : List Char
  deriving Repr, DecidableEq

/-- Passes white space with at most one line ending in it. -/
def skipLinkSpace (text : List Char) : List Char :=
  let text := text.dropWhile isLineSpace
  match text with
  | '\n' :: rest => rest.dropWhile isLineSpace
  | _ => text

/-- The parenthesised target behind the text of a link, and what follows it. -/
def inlineTarget? (inTable : Bool) : List Char → Option (Target × List Char)
  | '(' :: rest =>
      match destination? (skipLinkSpace rest) with
      | none => none
      | some (destination, after) =>
          let after := skipLinkSpace after
          let (title, after) := match title? inTable after with
            | some (title, after) => (title, skipLinkSpace after)
            | none => ([], after)
          match after with
          | ')' :: after => some (⟨unescape inTable destination, title⟩, after)
          | _ => none
  | _ => none

/-- A title in the definition of a link target, as written. It holds no blank line, and
`nextLine` passes the marks at the beginning of a line. -/
def definitionTitle? (nextLine : List Char → Option (List Char)) :
    List Char → Option (List Char × List Char)
  | [] => none
  | opening :: rest => (titleEnd? opening).bind fun closing => go closing opening (rest.length + 1) rest
where
  go (closing opening : Char) : Nat → List Char → Option (List Char × List Char)
    | 0, _ => none
    | _, [] => none
    | fuel + 1, c :: rest =>
        let prepend (start : List Char) (outcome : Option (List Char × List Char)) :=
          outcome.map fun (text, after) => (start ++ text, after)
        if c == closing then some ([], rest)
        else if c == opening then none
        else
          match lineEnding? (c :: rest), c, rest with
          | some ending, _, _ =>
              match nextLine ((c :: rest).drop ending) with
              | none => none
              | some line =>
                  if (blankLine? line).isSome then none
                  else prepend ['\n'] (go closing opening fuel line)
          | none, '\\', d :: rest => prepend ['\\', d] (go closing opening fuel rest)
          | none, _, _ => prepend [c] (go closing opening fuel rest)

end Bindery.Markdown
