import Bindery.Html.Element

/-!
# Kinds of elements

The groups of elements that the rules of tree construction name.
-/

set_option autoImplicit false

namespace Bindery.Html

/-- Whether this is one of the HTML elements of these names. -/
def Element.isOneOf (element : Element) (names : List String) : Bool :=
  element.space = .html && names.contains element.name

def impliedEndNames : List String :=
  ["dd", "dt", "li", "option", "optgroup", "p", "rb", "rp", "rt", "rtc"]

def tableEndNames : List String :=
  ["caption", "colgroup", "tbody", "td", "tfoot", "th", "thead", "tr"]

def headingNames : List String := ["h1", "h2", "h3", "h4", "h5", "h6"]

def formattingNames : List String :=
  ["b", "big", "code", "em", "font", "i", "s", "small", "strike", "strong", "tt", "u"]

/-- The elements that no end tag of an ordinary element reaches across. -/
def specialNames : List String :=
  ["address", "applet", "area", "article", "aside", "base", "basefont", "bgsound", "blockquote",
    "body", "br", "button", "caption", "center", "col", "colgroup", "dd", "details", "dir", "div",
    "dl", "dt", "embed", "fieldset", "figcaption", "figure", "footer", "form", "frame",
    "frameset", "h1", "h2", "h3", "h4", "h5", "h6", "head", "header", "hgroup", "hr", "html",
    "iframe", "img", "input", "isindex", "li", "link", "listing", "main", "marquee", "menu",
    "meta", "nav", "noembed", "noframes", "noscript", "object", "ol", "p", "param", "plaintext",
    "pre", "script", "section", "select", "source", "style", "summary", "table", "tbody", "td",
    "template", "textarea", "tfoot", "th", "thead", "title", "tr", "track", "ul", "wbr", "xmp"]

def Element.isSpecial (element : Element) : Bool := element.isOneOf specialNames

def Element.isHeading (element : Element) : Bool := element.isOneOf headingNames

def Element.isCell (element : Element) : Bool := element.isOneOf ["td", "th"]

/-- Text in these MathML elements is read as in HTML. -/
def Element.holdsMathText (element : Element) : Bool :=
  element.space = .mathml && ["mi", "mo", "mn", "ms", "mtext"].contains element.name

/-- What these SVG elements contain is read as in HTML. -/
def Element.holdsHtml (element : Element) : Bool :=
  element.space = .svg && ["foreignObject", "desc", "title"].contains element.name

/-- Whether a MathML annotation says that it contains HTML. -/
def Element.isHtmlNote (element : Element) : Bool :=
  match (element.attributes.find? fun item => item.space = .none && item.name = "encoding") with
  | some item =>
      let encoding := item.value.toList.map Char.toLower
      encoding = "text/html".toList || encoding = "application/xhtml+xml".toList
  | none => false

def Element.isMathNote (element : Element) : Bool :=
  element.space = .mathml && element.name = "annotation-xml"

/-! ## What bounds the search for an open element -/

def Element.boundsScope (element : Element) : Bool :=
  element.isOneOf
      ["applet", "caption", "html", "table", "td", "th", "marquee", "object", "template"] ||
    element.holdsMathText || element.holdsHtml

def Element.boundsItem (element : Element) : Bool :=
  element.boundsScope || element.isOneOf ["ol", "ul"]

def Element.boundsButton (element : Element) : Bool :=
  element.boundsScope || element.isHtml "button"

def Element.boundsTable (element : Element) : Bool :=
  element.isOneOf ["html", "table", "template"]

def Element.boundsSelect (element : Element) : Bool :=
  !element.isOneOf ["optgroup", "option"]

/-- Content that stands in one of these directly, where it does not belong, is moved out. -/
def Element.fosters (element : Element) : Bool :=
  element.isOneOf ["table", "tbody", "tfoot", "thead", "tr"]

end Bindery.Html
