import Bindery.Html.Token.Script

/-!
# Reading comments and document types
-/

set_option autoImplicit false

namespace Bindery.Html

/-! ## Comments -/

/-- A comment runs to the first of its two ends. -/
def splitComment : List Char → Option (List Char × List Char)
  | [] => none
  | '-' :: '-' :: '>' :: rest => some ([], rest)
  | '-' :: '-' :: '!' :: '>' :: rest => some ([], rest)
  | c :: rest => (splitComment rest).map fun (content, after) => (c :: content, after)

/-- The content of a comment that the document cuts off: an end begun is no part of it. -/
def unfinishedComment (text : List Char) : List Char :=
  match text.reverse with
  | '!' :: '-' :: '-' :: content => content.reverse
  | '-' :: '-' :: content => content.reverse
  | '-' :: content => content.reverse
  | content => content.reverse

def commentToken (content : List Char) : Token :=
  .comment (String.ofList (content.map withoutNull))

def readComment : List Char → Token × List Char
  | '>' :: rest => (commentToken [], rest)
  | '-' :: '>' :: rest => (commentToken [], rest)
  | text =>
      match splitComment text with
      | some (content, rest) => (commentToken content, rest)
      | none => (commentToken (unfinishedComment text), [])

/-- Reads what is no declaration as a comment up to the next closing sign. -/
def readStrayComment (text : List Char) : Token × List Char :=
  let content := text.takeWhile (· != '>')
  (commentToken content, text.drop (content.length + 1))

/-! ## Document types -/

/-- A quoted identifier, whether its closing quote is missing, and what follows. -/
def readIdentifier? : List Char → Option (String × Bool × List Char)
  | [] => none
  | quote :: rest =>
      if quote = '"' || quote = '\'' then
        let content := rest.takeWhile (· != quote)
        let written := String.ofList (content.map withoutNull)
        some (written, content.length = rest.length, rest.drop (content.length + 1))
      else none

def skipTagBlanks (text : List Char) : List Char := text.dropWhile isTagBlank

/-- The identifiers of a document type behind its name. -/
def readIdentifiers (text : List Char) : Option String × Option String × Bool :=
  let text := skipTagBlanks text
  if text.isEmpty then (none, none, false)
  else
    match dropKeyword? "public" text with
    | some rest =>
        match readIdentifier? (skipTagBlanks rest) with
        | none => (none, none, true)
        | some (publicId, true, _) => (some publicId, none, true)
        | some (publicId, false, rest) =>
            let rest := skipTagBlanks rest
            if rest.isEmpty then (some publicId, none, false)
            else
              match readIdentifier? rest with
              | none => (some publicId, none, true)
              | some (systemId, broken, _) => (some publicId, some systemId, broken)
    | none =>
        match dropKeyword? "system" text with
        | some rest =>
            match readIdentifier? (skipTagBlanks rest) with
            | none => (none, none, true)
            | some (systemId, broken, _) => (none, some systemId, broken)
        | none => (none, none, true)

/-- Reads a document type behind its keyword; it ends at the next closing sign. -/
def readDoctype (text : List Char) : Token × List Char :=
  let content := text.takeWhile (· != '>')
  let inner := skipTagBlanks content
  let name := inner.takeWhile fun c => !isTagBlank c
  let (publicId, systemId, broken) := readIdentifiers (inner.drop name.length)
  let broken := broken || name.isEmpty || content.length = text.length
  (.doctype ⟨String.ofList (name.map nameChar), publicId, systemId, broken⟩,
    text.drop (content.length + 1))

end Bindery.Html
