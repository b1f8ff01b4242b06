import Bindery.Error
import Bindery.Markdown.Render
import Bindery.Textile.Render

/-!
# Markup engines

An engine turns a text into HTML or refuses it. Each format but HTML has one.
-/

set_option autoImplicit false

namespace Bindery

/-- Turns a text into HTML. -/
abbrev Engine := String → Except BookError String

structure Markup where
  markdown : Engine
  textile : Engine

namespace Markup

def standard : Markup where
  markdown := fun text => .ok (Markdown.render text)
  textile := fun text => .ok (Textile.render text)

def render (markup : Markup) (format : Format) : Engine :=
  match format with
  | .markdown => markup.markdown
  | .textile => markup.textile
  | .html => .ok

end Markup

end Bindery
