import Bindery.Markdown.Cursor
import Bindery.Text.Lines

/-!
# Raw HTML in prose

Tags, comments, instructions, declarations and character sections that pass
through prose untouched. Every function starts behind the less-than sign and
returns the text behind the closing greater-than sign.
-/

set_option autoImplicit false

namespace Bindery.Markdown

/-- Passes white space. A line may end in it only where `multiline` allows that. -/
def skipTagSpace (multiline : Bool) (text : List Char) : Option (List Char) :=
  let after := text.dropWhile isLineSpace
  match after with
  | [] => some []
  | c :: _ =>
      if c == '\n' || c == '\r' then
        if multiline then some (after.dropWhile isSpace) else none
      else some after

/-- Whether the character may stand in an attribute value without quotes. -/
def isBareValueChar (c : Char) : Bool :=
  !(c == '\'' || c == '"' || c == ' ' || c == '=' || c == '>' || c == '<' || c == '\x60' ||
    c == '\n' || c == '\r')

/-- Passes an attribute value up to its closing quote. -/
def skipQuoted (multiline : Bool) (quote : Char) : List Char → Option (List Char)
  | [] => none
  | c :: rest =>
      if c == quote then some rest
      else if !multiline && (c == '\n' || c == '\r') then none
      else skipQuoted multiline quote rest

def skipAttributeValue (multiline : Bool) : List Char → Option (List Char)
  | [] => none
  | c :: rest =>
      if c == '"' || c == '\'' then skipQuoted multiline c rest
      else if isBareValueChar c then some (rest.dropWhile isBareValueChar)
      else none

/-- Passes a name and, if an equals sign follows, a value. -/
def skipAttribute (multiline : Bool) : List Char → Option (List Char)
  | [] => none
  | c :: rest =>
      if c.isAlpha || c == '_' || c == ':' then
        let after := rest.dropWhile fun d =>
          d.isAlphanum || d == '_' || d == '.' || d == ':' || d == '-'
        match skipTagSpace multiline after with
        | none => none
        | some ('=' :: value) =>
            (skipTagSpace multiline value).bind (skipAttributeValue multiline)
        | some _ => some after
      else none

/-- Passes attributes, each behind white space, up to the end of the tag. -/
def skipAttributes (multiline : Bool) : Nat → List Char → Option (List Char)
  | 0, _ => none
  | fuel + 1, text =>
      match skipTagSpace multiline text with
      | none => none
      | some [] => none
      | some (c :: after) =>
          if c == '/' || c == '>' then some (c :: after)
          else if (c :: after).length = text.length then none
          else (skipAttribute multiline (c :: after)).bind (skipAttributes multiline fuel)

def tagEnd? (multiline : Bool) (text : List Char) : Option (List Char) :=
  let (closing, text) := match text with
    | '/' :: rest => (true, rest)
    | _ => (false, text)
  match text with
  | [] => none
  | c :: _ =>
      if !c.isAlpha then none
      else
        let after := (text.dropWhile Char.isAlpha).dropWhile fun d => d.isAlphanum || d == '-'
        if closing then
          match after.dropWhile isLineSpace with
          | '>' :: rest => some rest
          | _ => none
        else
          match skipAttributes multiline (after.length + 1) after with
          | some ('/' :: '>' :: rest) => some rest
          | some ('>' :: rest) => some rest
          | _ => none

/-- The text behind the first occurrence of the needle. -/
def behind? (needle : List Char) : List Char → Option (List Char)
  | [] => if needle.isEmpty then some [] else none
  | c :: rest =>
      match Text.dropStart? needle (c :: rest) with
      | some after => some after
      | none => behind? needle rest

def markupSection? : List Char → Option (List Char)
  | '!' :: '-' :: '-' :: rest => behind? "-->".toList ('-' :: '-' :: rest)
  | '?' :: rest => behind? "?>".toList rest
  | '!' :: c :: rest =>
      match Text.dropStart? "[CDATA[".toList (c :: rest) with
      | some body => behind? "]]>".toList body
      | none => if c.isAlpha then behind? ">".toList rest else none
  | _ => none

/-- An absolute address in angle brackets: a scheme of two to 32 characters, a colon, and no
space, control character or less-than sign. -/
def autolinkAddress? (text : List Char) : Option (List Char × List Char) :=
  match text with
  | c :: rest =>
      if !c.isAlpha then none
      else
        let scheme := rest.takeWhile fun d => d.isAlphanum || d == '.' || d == '-' || d == '+'
        match rest.drop scheme.length with
        | ':' :: body =>
            if 1 ≤ scheme.length && scheme.length ≤ 31 then
              let path := body.takeWhile fun d => d != '>' && d != '<' && ' ' < d
              match body.drop path.length with
              | '>' :: after => some (c :: scheme ++ ':' :: path, after)
              | _ => none
            else none
        | _ => none
  | [] => none

/-- The characters before the at sign of a mail address. -/
def isMailChar (c : Char) : Bool :=
  c.isAlphanum || ".!#$%&'*+/=?^_\x60\x7b|\x7d~-".toList.contains c

/-- Passes the labels of a host name, each of one to 63 characters that neither begins nor ends
with a hyphen. -/
def skipHost : Nat → List Char → Option (List Char)
  | 0, _ => none
  | fuel + 1, text =>
      let part := text.takeWhile fun c => c.isAlphanum || c == '-'
      if part.isEmpty || 63 < part.length || part.head? == some '-' || part.getLast? == some '-'
      then none
      else
        match text.drop part.length with
        | '.' :: rest => skipHost fuel rest
        | after => some after

def autolinkMail? (text : List Char) : Option (List Char × List Char) :=
  let user := text.takeWhile isMailChar
  match user, text.drop user.length with
  | _ :: _, '@' :: host =>
      match skipHost (host.length + 1) host with
      | some ('>' :: after) => some (text.take (text.length - after.length - 1), after)
      | _ => none
  | _, _ => none

end Bindery.Markdown
