import Bindery.Html.Construction.Foreign
import Bindery.Html.Construction.Head

/-!
# In the body

The rules for ordinary content, which the other parts of a document fall back on.
-/

set_option autoImplicit false

namespace Bindery.Html

/-- Whether the tag is of a kind that is not shown. -/
def Tag.isHidden (tag : Tag) : Bool :=
  tag.attributes.any fun (name, value) =>
    name = "type" && value.toList.map Char.toLower = "hidden".toList

/-- The start tags of blocks, which end a paragraph. -/
def blockNames : List String :=
  ["address", "article", "aside", "blockquote", "center", "details", "dialog", "dir", "div",
    "dl", "fieldset", "figcaption", "figure", "footer", "header", "hgroup", "main", "menu",
    "nav", "ol", "p", "search", "section", "summary", "ul"]

/-- The elements that an end tag of their name closes with all that is open inside. -/
def closableNames : List String :=
  ["address", "article", "aside", "blockquote", "button", "center", "details", "dialog", "dir",
    "div", "dl", "fieldset", "figcaption", "figure", "footer", "header", "hgroup", "listing",
    "main", "menu", "nav", "ol", "pre", "search", "section", "summary", "ul"]

namespace State

/-- The body, if it is the second element from the root in. -/
def body? (state : State) : Option Nat :=
  match state.opened.reverse with
  | _ :: node :: _ => if (state.element node).isHtml "body" then some node else none
  | _ => none

/-- The attributes of another `body` tag go to the body. -/
def mergeBody (state : State) (tag : Tag) : State :=
  match state.body? with
  | some body =>
      if state.hasOpen "template" then state
      else
        { state with
          framesAllowed := false
          arena := state.arena.changeElement body (·.addMissing tag.attributes) }
  | none => state

/-- A set of frames takes the place of a body that nothing has been shown in. -/
def replaceBody (state : State) (tag : Tag) : State :=
  match state.body? with
  | some body =>
      if state.framesAllowed then
        let state := { state with
          arena := state.arena.detach body
          opened := state.opened.drop (state.opened.length - 1) }
        (state.openTag tag).withMode .inFrames
      else state
  | none => state

def openBlock (state : State) (tag : Tag) : State := state.closeParagraphInScope.openTag tag

def openHeading (state : State) (tag : Tag) : State :=
  let state := state.closeParagraphInScope
  (if state.current.isHeading then state.pop else state).openTag tag

def openForm (state : State) (tag : Tag) : State :=
  let inTemplate := state.hasOpen "template"
  if state.form?.isSome && !inTemplate then state
  else
    let (state, node) := state.closeParagraphInScope.insertOpen tag.element
    if inTemplate then state else { state with form? := some node }

/-- Closes the form that is open, or the form in a template. -/
def closeForm (state : State) : State :=
  if state.hasOpen "template" then
    if state.nameInScope Element.boundsScope "form" then
      state.closeOptional.popThroughName "form"
    else state
  else
    match state.form? with
    | none => state
    | some node =>
        let state := { state with form? := none }
        if state.findsOpen Element.boundsScope (fun other _ => other == node) state.opened then
          state.closeOptional.removeOpen node
        else state

/-- The item that another item of these names closes. -/
def openItem? (state : State) (names : List String) : List Nat → Option String
  | [] => none
  | node :: rest =>
      let tag := state.element node
      if tag.isOneOf names then some tag.name
      else if tag.isSpecial && !tag.isOneOf ["address", "div", "p"] then none
      else state.openItem? names rest

def openItem (state : State) (tag : Tag) : State :=
  let names := if tag.name = "li" then ["li"] else ["dd", "dt"]
  let state := state.refuseFrames
  let state :=
    match state.openItem? names state.opened with
    | some name => (state.closeOptionalExcept name).popThroughName name
    | none => state
  state.openBlock tag

def openButton (state : State) (tag : Tag) : State :=
  let state :=
    if state.nameInScope Element.boundsScope "button" then
      state.closeOptional.popThroughName "button"
    else state
  (state.reopenFormatting.openTag tag).refuseFrames

/-- A link does not stand inside a link. -/
def openLink (state : State) (tag : Tag) : State :=
  let earlier? := state.recentFormatting.find? fun (node, _) => (state.element node).isHtml "a"
  let state :=
    match earlier? with
    | some (node, _) => ((state.closeFormatting "a").dropFormatting node).removeOpen node
    | none => state
  state.reopenFormatting.openFormatting tag

def openUnbroken (state : State) (tag : Tag) : State :=
  let state := state.reopenFormatting
  let state :=
    if state.nameInScope Element.boundsScope "nobr" then
      (state.closeFormatting "nobr").reopenFormatting
    else state
  state.openFormatting tag

def openTable (state : State) (tag : Tag) : State :=
  let state := if state.lenient then state else state.closeParagraphInScope
  (state.openTag tag).refuseFrames.withMode .inTable

def openSelect (state : State) (tag : Tag) : State :=
  let state := (state.reopenFormatting.openTag tag).refuseFrames
  state.withMode
    (if [.inTable, .inCaption, .inTableBody, .inRow, .inCell].contains state.mode then
      .inSelectInTable
    else .inSelect)

def openOption (state : State) (tag : Tag) : State :=
  let state := if state.current.isHtml "option" then state.pop else state
  state.reopenFormatting.openTag tag

/-- A ruby annotation closes what may be closed inside a ruby element. -/
def openRuby (state : State) (tag : Tag) : State :=
  let state :=
    if state.nameInScope Element.boundsScope "ruby" then
      if tag.name = "rb" || tag.name = "rtc" then state.closeOptional
      else state.closeOptionalExcept "rtc"
    else state
  state.openTag tag

/-- The rules for a start tag in the body. -/
def startInBody (state : State) (tag : Tag) : State :=
  let name := tag.name
  if name = "html" then state.mergeRoot tag
  else if sharedStarts.contains name then state.sharedStart tag
  else if name = "body" then state.mergeBody tag
  else if name = "frameset" then state.replaceBody tag
  else if blockNames.contains name then state.openBlock tag
  else if headingNames.contains name then state.openHeading tag
  else if name = "pre" || name = "listing" then
    { (state.openBlock tag).refuseFrames with skipsNewline := true }
  else if name = "form" then state.openForm tag
  else if ["li", "dd", "dt"].contains name then state.openItem tag
  else if name = "plaintext" then { state.openBlock tag with reading := .plain }
  else if name = "button" then state.openButton tag
  else if name = "a" then state.openLink tag
  else if formattingNames.contains name then state.reopenFormatting.openFormatting tag
  else if name = "nobr" then state.openUnbroken tag
  else if ["applet", "marquee", "object"].contains name then
    (state.reopenFormatting.openTag tag).addMarker.refuseFrames
  else if name = "table" then state.openTable tag
  else if name = "image" then
    (state.reopenFormatting.insertClosed { tag with name := "img" }.element).refuseFrames
  else if ["area", "br", "embed", "img", "keygen", "wbr"].contains name then
    (state.reopenFormatting.insertClosed tag.element).refuseFrames
  else if name = "input" then
    let state := state.reopenFormatting.insertClosed tag.element
    if tag.isHidden then state else state.refuseFrames
  else if ["param", "source", "track"].contains name then state.insertClosed tag.element
  else if name = "hr" then (state.closeParagraphInScope.insertClosed tag.element).refuseFrames
  else if name = "textarea" then
    { state.refuseFrames.openText tag (.escapable name) with skipsNewline := true }
  else if name = "xmp" then
    state.closeParagraphInScope.reopenFormatting.refuseFrames.openText tag (.raw name)
  else if name = "iframe" then state.refuseFrames.openText tag (.raw name)
  else if name = "noembed" || name = "noscript" then state.openText tag (.raw name)
  else if name = "select" then state.openSelect tag
  else if name = "optgroup" || name = "option" then state.openOption tag
  else if ["rb", "rtc", "rp", "rt"].contains name then state.openRuby tag
  else if name = "math" then state.insertForeign tag .mathml false
  else if name = "svg" then state.insertForeign tag .svg false
  else if ["caption", "col", "colgroup", "frame", "head", "tbody", "td", "tfoot", "th", "thead",
      "tr"].contains name then
    state
  else state.reopenFormatting.openTag tag

/-- The rules for an end tag in the body, `body` and `html` apart. -/
def endInBody (state : State) (tag : Tag) : State :=
  let name := tag.name
  let inScope := state.nameInScope Element.boundsScope name
  if name = "template" then state.closeTemplate
  else if closableNames.contains name then
    if inScope then state.closeOptional.popThroughName name else state
  else if name = "form" then state.closeForm
  else if name = "p" then
    let state :=
      if state.nameInScope Element.boundsButton "p" then state else state.openName "p"
    state.closeParagraph
  else if name = "li" then
    if state.nameInScope Element.boundsItem name then
      (state.closeOptionalExcept name).popThroughName name
    else state
  else if name = "dd" || name = "dt" then
    if inScope then (state.closeOptionalExcept name).popThroughName name else state
  else if headingNames.contains name then
    if state.inScope Element.boundsScope Element.isHeading then
      state.closeOptional.popThrough Element.isHeading
    else state
  else if name = "a" || name = "nobr" || formattingNames.contains name then
    state.closeFormatting name
  else if ["applet", "marquee", "object"].contains name then
    if inScope then (state.closeOptional.popThroughName name).clearFormatting else state
  else if name = "br" then
    (state.reopenFormatting.insertClosed (.ofName name [])).refuseFrames
  else state.closeOrdinary name

/-- The end of the document inside a template: the template is closed. -/
def finishInTemplate (state : State) : Step :=
  if state.hasOpen "template" then
    let state := (state.popThroughName "template").clearFormatting
    .again { state with templateModes := state.templateModes.tail }.resetMode
  else .done state

def finishInBody (state : State) : Step :=
  if state.templateModes.isEmpty then .done state else state.finishInTemplate

def inBody (state : State) : Token → Step
  | .blank content => .done (state.reopenFormatting.insertText content)
  | .text content => .done (state.reopenFormatting.refuseFrames.insertText content)
  | .comment content => .done (state.insertComment content)
  | .startTag tag => .done (state.startInBody tag)
  | .endTag tag =>
      if tag.name = "body" then
        .done (if state.nameInScope Element.boundsScope "body" then state.withMode .afterBody
          else state)
      else if tag.name = "html" then
        if state.nameInScope Element.boundsScope "body" then .again (state.withMode .afterBody)
        else .done state
      else .done (state.endInBody tag)
  | .finish => state.finishInBody
  | .null => .done state
  | .doctype _ => .done state

end State

end Bindery.Html
