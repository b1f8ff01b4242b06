import Bindery.Html.Construction.Formatting

/-!
# Before and in the head

The rules up to the body, and those that other parts of a document share with
the head: scripts, styles, templates and the like.
-/

set_option autoImplicit false

namespace Bindery.Html

/-- Adds the attributes of a tag that the element does not have. -/
def Element.addMissing (element : Element) (attributes : List (String × String)) : Element :=
  { element with
    attributes := element.attributes ++
      (attributes.filter fun (name, _) =>
        !element.attributes.any fun item => item.space = .none && item.name = name).map
        fun (name, value) => .plain name value }

/-- The attributes of another `html` tag go to the root. -/
def State.mergeRoot (state : State) (tag : Tag) : State :=
  match state.root? with
  | some root =>
      if state.hasOpen "template" then state
      else { state with
        arena := state.arena.changeElement root (·.addMissing tag.attributes) }
  | none => state

/-- The beginnings of public identifiers whose documents are read leniently. -/
def lenientPublicStarts : List String :=
  ["-//ietf//dtd html 2.0", "-//ietf//dtd html 2.1e//", "-//ietf//dtd html 3.0//",
    "-//ietf//dtd html 3.2 final//", "-//ietf//dtd html 3.2//", "-//ietf//dtd html 3//",
    "-//ietf//dtd html level 0//", "-//ietf//dtd html level 1//", "-//ietf//dtd html level 2//",
    "-//ietf//dtd html level 3//", "-//ietf//dtd html strict", "-//ietf//dtd html//",
    "-//w3c//dtd html 3 1995-03-24//", "-//w3c//dtd html 3.2 draft//",
    "-//w3c//dtd html 3.2 final//", "-//w3c//dtd html 3.2//", "-//w3c//dtd html 3.2s draft//",
    "-//w3c//dtd html 4.0 frameset//", "-//w3c//dtd html 4.0 transitional//",
    "-//w3c//dtd html experimental 19960712//", "-//w3c//dtd html experimental 970421//",
    "-//w3c//dtd w3 html//", "-//w3o//dtd w3 html 3.0//", "-//w3o//dtd w3 html strict 3.0//en//"]

/-- The beginnings of public identifiers that are read leniently without a system identifier. -/
def loosePublicStarts : List String :=
  ["-//w3c//dtd html 4.01 frameset//", "-//w3c//dtd html 4.01 transitional//"]

def startsWithAny (starts : List String) (text : List Char) : Bool :=
  starts.any fun start => (Text.dropStart? start.toList text).isSome

/-- Whether the document type asks for lenient reading. -/
def Doctype.isLenient (declaration : Doctype) : Bool :=
  let lower (text : String) := text.toList.map Char.toLower
  let publicId := declaration.publicId.map lower
  let systemId := declaration.systemId.map lower
  declaration.broken || declaration.name ≠ "html" || publicId = some "html".toList ||
    publicId.any (startsWithAny lenientPublicStarts) ||
    (systemId.isNone && publicId.any (startsWithAny loosePublicStarts))

namespace State

/-- The end tags that count before the body as if something stood there. -/
def passesEarly (name : String) : Bool := ["head", "body", "html", "br"].contains name

def openRoot (state : State) (tag : Element) : State :=
  let (state, node) := state.create tag
  { state with arena := state.arena.append document node }.push node

def openHead (state : State) (tag : Element) : State :=
  let (state, node) := state.insertOpen tag
  { state with head? := some node, mode := .inHead }

def initial (state : State) : Token → Step
  | .blank _ => .done state
  | .comment _ => .done state
  | .doctype declaration =>
      .done { state with lenient := declaration.isLenient, mode := .beforeHtml }
  | _ => .again { state with lenient := true, mode := .beforeHtml }

def beforeHtml (state : State) (token : Token) : Step :=
  let other := Step.again ((state.openRoot (.ofName "html" [])).withMode .beforeHead)
  match token with
  | .blank _ => .done state
  | .comment _ => .done state
  | .startTag tag =>
      if tag.name = "html" then .done ((state.openRoot tag.element).withMode .beforeHead)
      else other
  | .endTag tag => if passesEarly tag.name then other else .done state
  | _ => other

def beforeHead (state : State) (token : Token) : Step :=
  let other := Step.again (state.openHead (.ofName "head" []))
  match token with
  | .blank _ => .done state
  | .comment content => .done (state.insertComment content)
  | .startTag tag =>
      if tag.name = "html" then .done (state.mergeRoot tag)
      else if tag.name = "head" then .done (state.openHead tag.element)
      else other
  | .endTag tag => if passesEarly tag.name then other else .done state
  | _ => other

/-- The tags that are read by the rules of the head elsewhere too. -/
def sharedStarts : List String :=
  ["base", "basefont", "bgsound", "link", "meta", "noframes", "script", "style", "template",
    "title"]

def openTemplate (state : State) (tag : Tag) : State :=
  let state := (state.openTag tag).addMarker.refuseFrames
  { state with mode := .inTemplate, templateModes := .inTemplate :: state.templateModes }

def closeTemplate (state : State) : State :=
  if state.hasOpen "template" then
    let state := (state.closeImplied (impliedEndNames ++ tableEndNames)).popThroughName "template"
    let state := state.clearFormatting
    { state with templateModes := state.templateModes.tail }.resetMode
  else state

/-- The rules for one of the tags that are shared with the head. -/
def sharedStart (state : State) (tag : Tag) : State :=
  if ["base", "basefont", "bgsound", "link", "meta"].contains tag.name then
    state.insertClosed tag.element
  else if tag.name = "title" then state.openText tag (.escapable tag.name)
  else if tag.name = "script" then state.openText tag .script
  else if tag.name = "template" then state.openTemplate tag
  else state.openText tag (.raw tag.name)

def inHead (state : State) (token : Token) : Step :=
  let other := Step.again (state.pop.withMode .afterHead)
  match token with
  | .blank content => .done (state.insertText content)
  | .comment content => .done (state.insertComment content)
  | .startTag tag =>
      if tag.name = "html" then .done (state.mergeRoot tag)
      else if tag.name = "head" then .done state
      else if tag.name = "noscript" || sharedStarts.contains tag.name then
        .done (state.sharedStart tag)
      else other
  | .endTag tag =>
      if tag.name = "head" then .done (state.pop.withMode .afterHead)
      else if tag.name = "template" then .done state.closeTemplate
      else if ["body", "html", "br"].contains tag.name then other
      else .done state
  | _ => other

/-- A shared tag between the head and the body goes into the head. -/
def sharedAfterHead (state : State) (tag : Tag) : State :=
  match state.head? with
  | some head => ((state.push head).sharedStart tag).removeOpen head
  | none => state

def afterHead (state : State) (token : Token) : Step :=
  let other := Step.again ((state.openName "body").withMode .inBody)
  match token with
  | .blank content => .done (state.insertText content)
  | .comment content => .done (state.insertComment content)
  | .startTag tag =>
      if tag.name = "html" then .done (state.mergeRoot tag)
      else if tag.name = "body" then .done ((state.openTag tag).refuseFrames.withMode .inBody)
      else if tag.name = "frameset" then .done ((state.openTag tag).withMode .inFrames)
      else if sharedStarts.contains tag.name then .done (state.sharedAfterHead tag)
      else if tag.name = "head" then .done state
      else other
  | .endTag tag =>
      if tag.name = "template" then .done state.closeTemplate
      else if ["body", "html", "br"].contains tag.name then other
      else .done state
  | _ => other

end State

end Bindery.Html
