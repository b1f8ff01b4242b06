import Bindery.Html.Element

/-!
# Footnote scopes

Footnotes are numbered anew in each file of a chapter and in each callout that
has some. The element around such a part opens a scope; inside, a number means
a note of that scope. What stands outside all of them is one scope more, with
the number zero.
-/

set_option autoImplicit false

namespace Bindery.Footnote

/-- Marks the element around a part that was rendered on its own. -/
def scopeAttribute : String := "data-footnote-scope"

/-- The classes of the elements around chapters and their files. -/
def scopeClasses : List String := ["chapter-file", "chapter"]

/-- Whether an element is marked as a scope by the attribute. -/
def isMarked (element : Html.Element) : Bool := (element.attribute? scopeAttribute).isSome

def opensScope (element : Html.Element) : Bool :=
  isMarked element || scopeClasses.any element.hasClass

/-- An element and the number of its scope. -/
abbrev Scoped := Nat × Html.Element

mutual

/-- Gives each element the number of its scope, and says which number was given last.
A scope is numbered when it opens. -/
def scopes (scope last : Nat) : Html.Node → Html.Tree Scoped × Nat
  | .element element children =>
      if opensScope element then
        let (children, latest) := scopesAll (last + 1) (last + 1) children
        (.element (last + 1, element) children, latest)
      else
        let (children, latest) := scopesAll scope last children
        (.element (scope, element) children, latest)
  | .text content => (.text content, last)
  | .comment content => (.comment content, last)

def scopesAll (scope last : Nat) : List Html.Node → List (Html.Tree Scoped) × Nat
  | [] => ([], last)
  | node :: rest =>
      let (node, latest) := scopes scope last node
      let (rest, latest) := scopesAll scope latest rest
      (node :: rest, latest)

end

def withScopes (node : Html.Node) : Html.Tree Scoped := (scopes 0 0 node).1

end Bindery.Footnote
