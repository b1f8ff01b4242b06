import Bindery.Inset
import Bindery.Footnote.Reconcile
import Bindery.Markup

/-!
# Callouts

A callout stands between two markers of three ampersands. Its first line names a
class, and the rest is rendered on its own into an element of that class.
-/

set_option autoImplicit false

namespace Bindery.Callout

def marker : List Char := "&&&".toList

def defaultClass : String := "callout"

/-- The class that the first line of a callout names. -/
def className (header : List Char) : String :=
  let name := Text.trim header
  if name.isEmpty then defaultClass else String.ofList name

/-- The element around the content of a callout. It is marked as a scope if footnotes are
concerned. -/
def container (name : String) (children : List Html.Node) : Html.Node :=
  let plain := Html.Element.ofName "div" [("class", name)]
  let marked := (Html.Tree.labelsAll children).any Footnote.concerns
  .element (if marked then plain.setAttribute Footnote.scopeAttribute "" else plain) children

/-- A callout as HTML on one line. -/
def renderCallout (markup : Markup) (format : Format) (inset : List Char) :
    Except BookError (List Char) := do
  let (header, body) := Inset.headerAndBody inset
  let rendered ← markup.render format (String.ofList body)
  match Html.parseBody? rendered with
  | none => .error .noBody
  | some body =>
      return Inset.foldLines (container (className header) body.children).outer.toList

def render (markup : Markup) (format : Format) (text : String) : Except BookError String := do
  let parts ← (Inset.parts marker text.toList).mapM fun part =>
    match part with
    | .plain content => .ok content
    | .inset inset => renderCallout markup format inset
  return String.ofList parts.flatten

end Bindery.Callout
