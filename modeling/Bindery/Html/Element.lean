import Bindery.Html.Tree
import Bindery.Text.Blank

/-!
# Elements and their attributes

An attribute is looked up by its local name, whatever its name space, and the
first one with that name counts.
-/

set_option autoImplicit false

namespace Bindery.Html

/-- The vocabulary that an element belongs to. -/
inductive Space where
  | html
  | svg
  | mathml
  deriving Repr, DecidableEq, Inhabited

/-- The name space of an attribute; most attributes have none. -/
inductive AttributeSpace where
  | none
  | xlink
  | xml
  | xmlns
  deriving Repr, DecidableEq, Inhabited

structure Attribute where
  space : AttributeSpace
  name : String
  value : String
  deriving Repr, DecidableEq, Inhabited

def Attribute.plain (name value : String) : Attribute := ⟨.none, name, value⟩

structure Element where
  space : Space
  name : String
  attributes : List Attribute
  deriving Repr, DecidableEq, Inhabited

/-- A node of a document. -/
abbrev Node := Tree Element

namespace Element

/-- An element of the ordinary vocabulary; the attributes are pairs of a name and a value. -/
def ofName (name : String) (attributes : List (String × String)) : Element :=
  ⟨.html, name, attributes.map fun (key, value) => .plain key value⟩

/-- Whether this is the HTML element of the given name. -/
def isHtml (element : Element) (name : String) : Bool :=
  element.space = .html && element.name = name

def attribute? (element : Element) (name : String) : Option String :=
  (element.attributes.find? (·.name = name)).map (·.value)

/-- Gives the first attribute of the name a new value, or adds the attribute at the end. -/
def setAttributeIn (name value : String) : List Attribute → List Attribute
  | [] => [.plain name value]
  | first :: rest =>
      if first.name = name then { first with value := value } :: rest
      else first :: setAttributeIn name value rest

def setAttribute (element : Element) (name value : String) : Element :=
  { element with attributes := setAttributeIn name value element.attributes }

/-- Takes away every attribute of the name. -/
def removeAttribute (element : Element) (name : String) : Element :=
  { element with attributes := element.attributes.filter (·.name ≠ name) }

/-- Whether the list of classes holds the given one. -/
def hasClass (element : Element) (className : String) : Bool :=
  match element.attribute? "class" with
  | some value => (Text.words value.toList).contains className.toList
  | none => false

end Element

end Bindery.Html
