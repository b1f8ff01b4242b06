import Bindery.Html.Element

/-!
# Writing a tree as markup

Text escapes the ampersand, the no-break space and the angle brackets; a value
escapes the ampersand, the no-break space and the quotation mark. Elements
such as `script` hold their text as it is. A void element has neither an end
tag nor elements inside; only the text below it is written.
-/

set_option autoImplicit false

namespace Bindery.Html

def escapeTextChar : Char → List Char
  | '&' => "&amp;".toList
  | '\u00a0' => "&nbsp;".toList
  | '<' => "&lt;".toList
  | '>' => "&gt;".toList
  | c => [c]

def escapeValueChar : Char → List Char
  | '&' => "&amp;".toList
  | '\u00a0' => "&nbsp;".toList
  | '"' => "&quot;".toList
  | c => [c]

def escapeText (text : String) : String := String.ofList (text.toList.flatMap escapeTextChar)

def escapeValue (value : String) : String := String.ofList (value.toList.flatMap escapeValueChar)

/-- The elements whose text is written without escapes. -/
def verbatimNames : List String :=
  ["style", "script", "xmp", "iframe", "noembed", "noframes", "plaintext", "noscript"]

/-- The elements that have no end tag. -/
def voidNames : List String :=
  ["area", "base", "basefont", "bgsound", "br", "col", "embed", "frame", "hr", "img", "input",
    "keygen", "link", "meta", "param", "source", "track", "wbr"]

def Element.isVerbatim (element : Element) : Bool :=
  element.space = .html && verbatimNames.contains element.name

def Element.isVoid (element : Element) : Bool :=
  element.space = .html && voidNames.contains element.name

/-- The name of an attribute with the sign of its name space. -/
def Attribute.writtenName : Attribute → String
  | ⟨.none, name, _⟩ => name
  | ⟨.xlink, name, _⟩ => "xlink:" ++ name
  | ⟨.xml, name, _⟩ => "xml:" ++ name
  | ⟨.xmlns, name, _⟩ => if name = "xmlns" then "xmlns" else "xmlns:" ++ name

def Attribute.write (item : Attribute) : String :=
  " " ++ item.writtenName ++ "=\"" ++ escapeValue item.value ++ "\""

def Element.startTag (element : Element) : String :=
  "<" ++ element.name ++ String.join (element.attributes.map Attribute.write) ++ ">"

def Element.endTag (element : Element) : String :=
  "</" ++ element.name ++ ">"

/-- How the nodes inside an element are written. -/
structure Surroundings where
  /-- Text stands as it is. -/
  verbatim : Bool
  /-- Tags are left out. -/
  void : Bool
  deriving Repr, DecidableEq

/-- Outside any element, text is escaped and tags are written. -/
def Surroundings.outside : Surroundings := ⟨false, false⟩

mutual

def Tree.write (around : Surroundings) : Node → String
  | .element tag children =>
      let inside := Tree.writeAll ⟨tag.isVerbatim, around.void || tag.isVoid⟩ children
      if around.void then inside
      else if tag.isVoid then tag.startTag ++ inside
      else tag.startTag ++ inside ++ tag.endTag
  | .text content => if around.verbatim then content else escapeText content
  | .comment content => "<!--" ++ content ++ "-->"

def Tree.writeAll (around : Surroundings) : List Node → String
  | [] => ""
  | node :: rest => Tree.write around node ++ Tree.writeAll around rest

end

def Tree.outer (node : Node) : String := Tree.write .outside node

def Tree.inner (node : Node) : String := Tree.writeAll .outside node.children

end Bindery.Html
