/-!
# Tokens of a document

Tags, comments, document types and runs of text.
-/

set_option autoImplicit false

namespace Bindery.Html

/-- A start or end tag as written; the first attribute of each name counts. -/
structure Tag where
  name : String
  attributes : List (String × String)
  selfClosing : Bool
  deriving Repr, DecidableEq, Inhabited

/-- The document type, as far as it decides how tables and paragraphs nest. -/
structure Doctype where
  name : String
  publicId : Option String
  systemId : Option String
  /-- The declaration is incomplete. -/
  broken : Bool
  deriving Repr, DecidableEq, Inhabited

inductive Token where
  | doctype (declaration : Doctype)
  | startTag (tag : Tag)
  | endTag (tag : Tag)
  | comment (content : String)
  /-- Characters of text, all of them blank. -/
  | blank (content : String)
  /-- Characters of text, none of them blank. -/
  | text (content : String)
  /-- The character zero, which has no place in text. -/
  | null
  | finish
  deriving Repr, DecidableEq, Inhabited

end Bindery.Html
