import Bindery.Textile.Block

/-!
# Textile

Renders the part of Textile that book chapters use.
-/

set_option autoImplicit false

namespace Bindery.Textile

/-- The blocks of a text as HTML, each on lines of its own. -/
def renderBlocks (text : List Char) : List Char :=
  (blocks text).flatMap fun block => renderBlock block ++ ['\n']

def renderChars (text : List Char) : List Char :=
  let text := Text.unixEndings text
  restore (spans text) (renderBlocks (lift text))

def render (text : String) : String := String.ofList (renderChars text.toList)

end Bindery.Textile
