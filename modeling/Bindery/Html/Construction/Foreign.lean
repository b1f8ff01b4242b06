import Bindery.Html.Construction.State

/-!
# SVG and MathML

Names that are mixed-case in these vocabularies get their spelling back, and
attributes such as `xlink:href` their name space.
-/

set_option autoImplicit false

namespace Bindery.Html

/-- The SVG elements that are not written in lower case. -/
def svgNames : List String :=
  ["altGlyph", "altGlyphDef", "altGlyphItem", "animateColor", "animateMotion",
    "animateTransform", "clipPath", "feBlend", "feColorMatrix", "feComponentTransfer",
    "feComposite", "feConvolveMatrix", "feDiffuseLighting", "feDisplacementMap",
    "feDistantLight", "feDropShadow", "feFlood", "feFuncA", "feFuncB", "feFuncG", "feFuncR",
    "feGaussianBlur", "feImage", "feMerge", "feMergeNode", "feMorphology", "feOffset",
    "fePointLight", "feSpecularLighting", "feSpotLight", "feTile", "feTurbulence",
    "foreignObject", "glyphRef", "linearGradient", "radialGradient", "textPath"]

/-- The SVG attributes that are not written in lower case. -/
def svgAttributeNames : List String :=
  ["attributeName", "attributeType", "baseFrequency", "baseProfile", "calcMode",
    "clipPathUnits", "diffuseConstant", "edgeMode", "filterUnits", "glyphRef",
    "gradientTransform", "gradientUnits", "kernelMatrix", "kernelUnitLength", "keyPoints",
    "keySplines", "keyTimes", "lengthAdjust", "limitingConeAngle", "markerHeight",
    "markerUnits", "markerWidth", "maskContentUnits", "maskUnits", "numOctaves", "pathLength",
    "patternContentUnits", "patternTransform", "patternUnits", "pointsAtX", "pointsAtY",
    "pointsAtZ", "preserveAlpha", "preserveAspectRatio", "primitiveUnits", "refX", "refY",
    "repeatCount", "repeatDur", "requiredExtensions", "requiredFeatures", "specularConstant",
    "specularExponent", "spreadMethod", "startOffset", "stdDeviation", "stitchTiles",
    "surfaceScale", "systemLanguage", "tableValues", "targetX", "targetY", "textLength",
    "viewBox", "viewTarget", "xChannelSelector", "yChannelSelector", "zoomAndPan"]

/-- The spelling of a lower-case name that the list knows, or the name itself. -/
def respell (spellings : List String) (name : String) : String :=
  (spellings.find? fun spelling => spelling.toList.map Char.toLower = name.toList).getD name

/-- The attributes that have a name space, as they are written. -/
def foreignAttribute (name value : String) : Attribute :=
  if ["xlink:actuate", "xlink:arcrole", "xlink:href", "xlink:role", "xlink:show", "xlink:title",
      "xlink:type"].contains name then
    ⟨.xlink, String.ofList (name.toList.drop 6), value⟩
  else if ["xml:lang", "xml:space"].contains name then
    ⟨.xml, String.ofList (name.toList.drop 4), value⟩
  else if name = "xmlns" then ⟨.xmlns, "xmlns", value⟩
  else if name = "xmlns:xlink" then ⟨.xmlns, "xlink", value⟩
  else .plain name value

/-- The spelling of an attribute name in a vocabulary. -/
def Space.attributeName : Space → String → String
  | .html, name => name
  | .svg, name => respell svgAttributeNames name
  | .mathml, name => if name = "definitionurl" then "definitionURL" else name

/-- The element of a start tag in a vocabulary; `respelled` says whether the name of the
element is looked up too. -/
def Tag.foreignElement (tag : Tag) (space : Space) (respelled : Bool) : Element :=
  ⟨space, if respelled && space = .svg then respell svgNames tag.name else tag.name,
    tag.attributes.map fun (name, value) => foreignAttribute (space.attributeName name) value⟩

/-- The start tags that end SVG or MathML content. -/
def endsForeignNames : List String :=
  ["b", "big", "blockquote", "body", "br", "center", "code", "dd", "div", "dl", "dt", "em",
    "embed", "h1", "h2", "h3", "h4", "h5", "h6", "head", "hr", "i", "img", "li", "listing",
    "menu", "meta", "nobr", "ol", "p", "pre", "ruby", "s", "small", "span", "strong", "strike",
    "sub", "sup", "table", "tt", "u", "ul", "var"]

def Tag.endsForeign (tag : Tag) : Bool :=
  endsForeignNames.contains tag.name ||
    (tag.name = "font" &&
      tag.attributes.any fun (name, _) => ["color", "face", "size"].contains name)

namespace State

/-- Inserts the element of an `svg` or `math` start tag, and opens it unless it closes itself. -/
def insertForeign (state : State) (tag : Tag) (space : Space) (respelled : Bool) : State :=
  let element := tag.foreignElement space respelled
  if tag.selfClosing then state.insertClosed element else (state.insertOpen element).1

/-- Whether a token is read by the rules of SVG and MathML. -/
def isForeign (state : State) (token : Token) : Bool :=
  let tag := state.current
  if tag.space = .html then false
  else
    match token with
    | .finish => false
    | .startTag start =>
        if tag.holdsHtml then false
        else if tag.holdsMathText then ["mglyph", "malignmark"].contains start.name
        else if tag.isMathNote then start.name ≠ "svg" && !tag.isHtmlNote
        else true
    | .blank _ | .text _ | .null =>
        !tag.holdsHtml && !tag.holdsMathText && !(tag.isMathNote && tag.isHtmlNote)
    | _ => true

/-- Closes foreign elements up to one inside which HTML may stand. -/
def leaveForeign (state : State) : State :=
  state.popDownTo fun tag => tag.space = .html || tag.holdsMathText || tag.holdsHtml

/-- What an end tag closes in SVG or MathML: the open elements that are left, or nothing if
an HTML element comes first. -/
def foreignEnd (state : State) (name : String) : Bool → List Nat → Option (List Nat)
  | _, [] => some state.opened
  | _, [_] => some state.opened
  | first, node :: rest =>
      let tag := state.element node
      if !first && tag.space = .html then none
      else if tag.name.toList.map Char.toLower = name.toList then some rest
      else state.foreignEnd name false rest

end State

end Bindery.Html
