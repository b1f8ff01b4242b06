import Bindery.Html.Construction.Select

/-!
# Building a document

Every text is a document: what is missing is supplied, and what is misplaced is
moved or dropped.
-/

set_option autoImplicit false

namespace Bindery.Html

namespace State

def inText (state : State) : Token → Step
  | .blank content => .done (state.insertText content)
  | .text content => .done (state.insertText content)
  | .endTag _ => .done (state.pop.withMode state.returnMode)
  | .finish => .again (state.pop.withMode state.returnMode)
  | _ => .done state

/-- Behind the body only blanks and comments stand where they are. -/
def afterBody (state : State) (token : Token) : Step :=
  match token with
  | .blank _ => state.inBody token
  | .comment content => .done (state.insertCommentIn (state.root?.getD document) content)
  | .startTag tag =>
      if tag.name = "html" then .done (state.mergeRoot tag) else .again (state.withMode .inBody)
  | .endTag tag =>
      if tag.name = "html" then .done (state.withMode .afterDocument)
      else .again (state.withMode .inBody)
  | .finish => .done state
  | _ => .again (state.withMode .inBody)

def afterDocument (state : State) (token : Token) : Step :=
  match token with
  | .blank _ => state.inBody token
  | .comment content => .done (state.insertCommentIn document content)
  | .startTag tag =>
      if tag.name = "html" then .done (state.mergeRoot tag) else .again (state.withMode .inBody)
  | .finish => .done state
  | _ => .again (state.withMode .inBody)

/-- Looks at a token by the rules of the mode. A document of frames has no body, so nothing
in it is kept. -/
def stepIn (state : State) (token : Token) : Step :=
  match state.mode with
  | .initial => state.initial token
  | .beforeHtml => state.beforeHtml token
  | .beforeHead => state.beforeHead token
  | .inHead => state.inHead token
  | .afterHead => state.afterHead token
  | .inBody => state.inBody token
  | .inText => state.inText token
  | .inTable => state.inTable token
  | .inTableText => state.inTableText token
  | .inCaption => state.inCaption token
  | .inColumns => state.inColumns token
  | .inTableBody => state.inTableBody token
  | .inRow => state.inRow token
  | .inCell => state.inCell token
  | .inSelect => state.inSelect token
  | .inSelectInTable => state.inSelectInTable token
  | .inTemplate => state.inTemplate token
  | .afterBody => state.afterBody token
  | .afterDocument => state.afterDocument token
  | .inFrames => .done state

/-- Looks at a token by the rules of SVG and MathML. -/
def inForeign (state : State) (token : Token) : Step :=
  match token with
  | .null => .done (state.insertText (String.singleton replacement))
  | .blank content => .done (state.insertText content)
  | .text content => .done (state.refuseFrames.insertText content)
  | .comment content => .done (state.insertComment content)
  | .startTag tag =>
      if tag.endsForeign then state.leaveForeign.stepIn token
      else .done (state.insertForeign tag state.current.space true)
  | .endTag tag =>
      if tag.name = "br" || tag.name = "p" then state.leaveForeign.stepIn token
      else
        match state.foreignEnd tag.name true state.opened with
        | some opened => .done { state with opened := opened }
        | none => state.stepIn token
  | .finish => .done state
  | .doctype _ => .done state

def step (state : State) (token : Token) : Step :=
  if state.isForeign token then state.inForeign token else state.stepIn token

/-- Looks at a token until it is done with; the number bounds how often. -/
def settle : Nat → State → Token → State
  | 0, state, _ => state
  | attempts + 1, state, token =>
      match state.step token with
      | .done state => state
      | .again state => settle attempts state token

/-- A token is looked at again only in another mode or with fewer open elements. -/
def attempts (state : State) : Nat := 16 + 4 * (state.opened.length + state.templateModes.length)

/-- Drops the line feed at the start of a text. -/
def withoutNewline : Token → Option Token
  | .blank content =>
      match content.toList with
      | ['\n'] => none
      | '\n' :: rest => some (.blank (String.ofList rest))
      | _ => some (.blank content)
  | token => some token

def take (state : State) (token : Token) : State :=
  let token? := if state.skipsNewline then withoutNewline token else some token
  let state := { state with skipsNewline := false }
  match token? with
  | some (.doctype declaration) =>
      if state.mode = .initial then settle 1 state (.doctype declaration) else state
  | some token => settle state.attempts state token
  | none => state

def allowsSections (state : State) : Bool := state.current.space ≠ .html

/-- Reads a text into the document; the number bounds the characters. The reader goes on
as it was told by the last token, or as it was already reading. -/
def readWithin : Nat → State → List Char → State
  | 0, state, _ => state
  | bound + 1, state, text =>
      let piece := state.reading.next state.allowsSections text
      let state := { state with reading := piece.reading }
      match piece.token? with
      | none => readWithin bound { state with skipsNewline := false } piece.rest
      | some .finish => state.take .finish
      | some token => readWithin bound (state.take token) piece.rest

end State

/-- Line endings as a document reads them: a carriage return ends a line, and with a line
feed behind it counts once. -/
def lineFeeds : List Char → List Char
  | [] => []
  | '\r' :: '\n' :: rest => '\n' :: lineFeeds rest
  | '\r' :: rest => '\n' :: lineFeeds rest
  | c :: rest => c :: lineFeeds rest

/-- A mark of the byte order at the start of a text is no part of it. -/
def withoutByteOrderMark : List Char → List Char
  | '\uFEFF' :: rest => rest
  | text => text

/-- The characters of a document as they are read. -/
def documentText (text : String) : List Char := lineFeeds (withoutByteOrderMark text.toList)

/-- The nodes of a document. Each character is at most one token, and the end is one more. -/
def parseDocument (text : String) : Arena :=
  let text := documentText text
  (State.start.readWithin (text.length + 2) text).arena

/-- A parsed document and its body. -/
structure Parsed where
  arena : Arena
  body : Nat

/-- The body of a document; a document of frames has none. -/
def parse? (text : String) : Option Parsed :=
  let arena := parseDocument text
  let bodies := (arena.children State.document).toList.findSome? (arena.find? (·.name = "body"))
  bodies.map fun body => ⟨arena, body⟩

def parseBody? (text : String) : Option Node := do
  let parsed ← parse? text
  parsed.arena.tree? parsed.body

end Bindery.Html
