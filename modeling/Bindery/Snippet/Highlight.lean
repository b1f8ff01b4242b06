import Bindery.Html.Writer

/-!
# Highlighted code

A highlighter turns code and the name of its language into HTML. The element of
the class `highlight` around the code is where the name of the file goes.
-/

set_option autoImplicit false

namespace Bindery.Snippet

/-- Turns code, and the name of its language, into HTML. -/
abbrev Highlighter := (code language : String) → String

def plainCode (code language : String) : Html.Node :=
  let attributes := [("class", "language-" ++ language), ("data-lang", language)]
  .element (.ofName "div" [("class", "highlight")])
    [.element (.ofName "pre" []) [.element (.ofName "code" attributes) [.text code]]]

/-- The highlighter that adds no colour. -/
def plainHighlighter : Highlighter := fun code language => (plainCode code language).outer

end Bindery.Snippet
