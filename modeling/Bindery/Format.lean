import Bindery.Files.Path

/-!
# Formats of chapter files
-/

set_option autoImplicit false

namespace Bindery

/-- What a chapter is written in. HTML is passed on as it is. -/
inductive Format where
  | markdown
  | textile
  | html
  deriving Repr, DecidableEq, Inhabited

namespace Format

/-- The format that an extension stands for; all but the known ones stand for HTML. -/
def ofPath (path : String) : Format :=
  match Files.Path.lowerExtension? path with
  | some extension =>
      if ["md", "mkdn", "markdown"].contains extension then .markdown
      else if extension = "textile" then .textile
      else .html
  | none => .html

def name : Format → String
  | .markdown => "markdown"
  | .textile => "textile"
  | .html => "html"

def ofName? : String → Option Format
  | "markdown" => some .markdown
  | "textile" => some .textile
  | "html" => some .html
  | _ => none

end Format

end Bindery
