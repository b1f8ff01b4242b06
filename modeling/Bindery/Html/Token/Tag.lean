import Bindery.Html.Reference
import Bindery.Html.Token

/-!
# Reading tags

A tag is read character by character behind its name. Names are in lower case,
and references in values are decoded when the value is complete.
-/

set_option autoImplicit false

namespace Bindery.Html

def isTagBlank (c : Char) : Bool := c == ' ' || c == '\t' || c == '\n' || c == '\x0c'

def isTextBlank (c : Char) : Bool := isTagBlank c || c == '\r'

/-- The character that stands where the character zero cannot. -/
def replacement : Char := '\uFFFD'

def withoutNull (c : Char) : Char := if c = '\x00' then replacement else c

/-- A character of a tag or attribute name as it is kept. -/
def nameChar (c : Char) : Char := withoutNull c.toLower

/-- The place within a tag, behind its name. -/
inductive TagPlace where
  | beforeName
  | inName
  | afterName
  | beforeValue
  | quoted (quote : Char)
  | unquoted
  | afterQuoted
  | slash
  deriving Repr, DecidableEq

/-- The attributes read so far, with the current name and value from their ends. -/
structure TagDraft where
  done : List (String × String)
  name : List Char
  value : List Char

namespace TagDraft

def empty : TagDraft := ⟨[], [], []⟩

/-- Completes the current attribute, unless one of its name is there already. -/
def close (draft : TagDraft) : TagDraft :=
  if draft.name.isEmpty then draft
  else
    let name := String.ofList draft.name.reverse
    if draft.done.any (·.1 = name) then ⟨draft.done, [], []⟩
    else ⟨(name, String.ofList (decodeValue draft.value.reverse)) :: draft.done, [], []⟩

def begin (draft : TagDraft) (c : Char) : TagDraft := { draft.close with name := [nameChar c] }

def addName (draft : TagDraft) (c : Char) : TagDraft :=
  { draft with name := nameChar c :: draft.name }

def addValue (draft : TagDraft) (c : Char) : TagDraft :=
  { draft with value := withoutNull c :: draft.value }

def attributes (draft : TagDraft) : List (String × String) := draft.close.done.reverse

end TagDraft

/-- The place behind a character that may open an attribute name. -/
def openName (draft : TagDraft) (c : Char) : TagPlace × TagDraft :=
  if isTagBlank c then (.beforeName, draft)
  else if c = '/' then (.slash, draft)
  else (.inName, draft.begin c)

/-- One character of a tag other than the sign that closes it. -/
def tagStep : TagPlace → TagDraft → Char → TagPlace × TagDraft
  | .beforeName, draft, c => openName draft c
  | .inName, draft, c =>
      if isTagBlank c then (.afterName, draft)
      else if c = '/' then (.slash, draft)
      else if c = '=' then (.beforeValue, draft)
      else (.inName, draft.addName c)
  | .afterName, draft, c =>
      if isTagBlank c then (.afterName, draft)
      else if c = '/' then (.slash, draft)
      else if c = '=' then (.beforeValue, draft)
      else (.inName, draft.begin c)
  | .beforeValue, draft, c =>
      if isTagBlank c then (.beforeValue, draft)
      else if c = '"' || c = '\'' then (.quoted c, draft)
      else (.unquoted, draft.addValue c)
  | .quoted quote, draft, c =>
      if c = quote then (.afterQuoted, draft) else (.quoted quote, draft.addValue c)
  | .unquoted, draft, c =>
      if isTagBlank c then (.beforeName, draft) else (.unquoted, draft.addValue c)
  | .afterQuoted, draft, c => openName draft c
  | .slash, draft, c => openName draft c

/-- Whether the place lets a closing sign close the tag. -/
def TagPlace.closes : TagPlace → Bool
  | .quoted _ => false
  | _ => true

/-- Reads a tag behind its name: attributes, whether a slash closes it, and the rest.
A tag that is not closed yields nothing. -/
def readTag (name : String) : TagPlace → TagDraft → List Char → Option (Tag × List Char)
  | _, _, [] => none
  | place, draft, c :: rest =>
      if c = '>' && place.closes then some (⟨name, draft.attributes, place = .slash⟩, rest)
      else
        let (place, draft) := tagStep place draft c
        readTag name place draft rest

def endsTagName (c : Char) : Bool := isTagBlank c || c == '/' || c == '>'

/-- Reads a tag from the first letter of its name. -/
def readNamedTag (text : List Char) : Option (Tag × List Char) :=
  let name := text.takeWhile fun c => !endsTagName c
  readTag (String.ofList (name.map nameChar)) .beforeName .empty (text.drop name.length)

end Bindery.Html
