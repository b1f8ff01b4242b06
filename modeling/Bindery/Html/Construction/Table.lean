import Bindery.Html.Construction.Body

/-!
# In tables

Text and elements that do not belong into a table are moved out, in front of it.
-/

set_option autoImplicit false

namespace Bindery.Html

def Element.isSectionContext (tag : Element) : Bool :=
  tag.isOneOf ["tbody", "tfoot", "thead", "template", "html"]

def Element.isRowContext (tag : Element) : Bool := tag.isOneOf ["tr", "template", "html"]

namespace State

/-- The rules for ordinary content, with what does not belong into a table moved out. -/
def inBodyFostering (state : State) (token : Token) : Step :=
  ({ state with fostering := true }.inBody token).mapState fun state =>
    { state with fostering := false }

/-- Text in a table is kept until it is known whether all of it is blank. -/
def tableText (state : State) (token : Token) : Step :=
  if state.current.fosters then
    .again { state with returnMode := state.mode, mode := .inTableText }
  else state.inBodyFostering token

def insertPending (state : State) : State :=
  let parts := state.pending.reverse
  let state := { state with pending := [] }
  if parts.all (·.1) then parts.foldl (fun state (_, content) => state.insertText content) state
  else
    parts.foldl
      (fun state (blank, content) =>
        (state.inBodyFostering (if blank then .blank content else .text content)).state)
      state

def inTableText (state : State) : Token → Step
  | .null => .done state
  | .blank content => .done { state with pending := (true, content) :: state.pending }
  | .text content => .done { state with pending := (false, content) :: state.pending }
  | _ => .again (state.insertPending.withMode state.returnMode)

def startInTable (state : State) (tag : Tag) : Step :=
  let name := tag.name
  let clear := state.popDownTo Element.boundsTable
  if name = "caption" then .done ((clear.addMarker.openTag tag).withMode .inCaption)
  else if name = "colgroup" then .done ((clear.openTag tag).withMode .inColumns)
  else if name = "col" then .again ((clear.openName "colgroup").withMode .inColumns)
  else if ["tbody", "tfoot", "thead"].contains name then
    .done ((clear.openTag tag).withMode .inTableBody)
  else if ["td", "th", "tr"].contains name then
    .again ((clear.openName "tbody").withMode .inTableBody)
  else if name = "table" then
    if state.nameInScope Element.boundsTable "table" then
      .again (state.popThroughName "table").resetMode
    else .done state
  else if ["style", "script", "template"].contains name then .done (state.sharedStart tag)
  else if name = "input" && tag.isHidden then .done (state.insertClosed tag.element)
  else if name = "form" then
    if state.hasOpen "template" || state.form?.isSome then .done state
    else
      let (state, node) := state.insertOpen tag.element
      .done { state with form? := some node }.pop
  else state.inBodyFostering (.startTag tag)

def inTable (state : State) (token : Token) : Step :=
  match token with
  | .null => state.tableText token
  | .blank _ => state.tableText token
  | .text _ => state.tableText token
  | .comment content => .done (state.insertComment content)
  | .startTag tag => state.startInTable tag
  | .endTag tag =>
      if tag.name = "table" then
        if state.nameInScope Element.boundsTable "table" then
          .done (state.popThroughName "table").resetMode
        else .done state
      else if ["body", "caption", "col", "colgroup", "html", "tbody", "td", "tfoot", "th",
          "thead", "tr"].contains tag.name then
        .done state
      else if tag.name = "template" then .done state.closeTemplate
      else state.inBodyFostering token
  | .finish => state.finishInBody
  | .doctype _ => .done state

/-- The tags that stand for the parts of a table. -/
def tablePartNames : List String :=
  ["caption", "col", "colgroup", "tbody", "td", "tfoot", "th", "thead", "tr"]

def inCaption (state : State) (token : Token) : Step :=
  let close (next : State → Step) : Step :=
    if state.nameInScope Element.boundsTable "caption" then
      next ((state.closeOptional.popThroughName "caption").clearFormatting.withMode .inTable)
    else .done state
  match token with
  | .startTag tag => if tablePartNames.contains tag.name then close .again else state.inBody token
  | .endTag tag =>
      if tag.name = "caption" then close .done
      else if tag.name = "table" then close .again
      else if ["body", "col", "colgroup", "html", "tbody", "td", "tfoot", "th", "thead",
          "tr"].contains tag.name then
        .done state
      else state.inBody token
  | _ => state.inBody token

def inColumns (state : State) (token : Token) : Step :=
  let other :=
    if state.current.isHtml "colgroup" then Step.again (state.pop.withMode .inTable)
    else .done state
  match token with
  | .blank content => .done (state.insertText content)
  | .comment content => .done (state.insertComment content)
  | .startTag tag =>
      if tag.name = "html" then .done (state.mergeRoot tag)
      else if tag.name = "col" then .done (state.insertClosed tag.element)
      else if tag.name = "template" then .done (state.sharedStart tag)
      else other
  | .endTag tag =>
      if tag.name = "colgroup" then
        if state.current.isHtml "colgroup" then .done (state.pop.withMode .inTable)
        else .done state
      else if tag.name = "col" then .done state
      else if tag.name = "template" then .done state.closeTemplate
      else other
  | .finish => state.finishInBody
  | _ => other

def inTableBody (state : State) (token : Token) : Step :=
  let clear := state.popDownTo Element.isSectionContext
  let leave : Step :=
    if state.inScope Element.boundsTable (·.isOneOf ["table", "tbody", "tfoot"]) then
      .again (clear.pop.withMode .inTable)
    else .done state
  match token with
  | .startTag tag =>
      if tag.name = "tr" then .done ((clear.openTag tag).withMode .inRow)
      else if tag.name = "th" || tag.name = "td" then
        .again ((clear.openName "tr").withMode .inRow)
      else if ["caption", "col", "colgroup", "tbody", "tfoot", "thead"].contains tag.name then
        leave
      else state.inTable token
  | .endTag tag =>
      if ["tbody", "tfoot", "thead"].contains tag.name then
        if state.nameInScope Element.boundsTable tag.name then
          .done (clear.pop.withMode .inTable)
        else .done state
      else if tag.name = "table" then leave
      else if ["body", "caption", "col", "colgroup", "html", "td", "th", "tr"].contains tag.name
      then .done state
      else state.inTable token
  | _ => state.inTable token

def inRow (state : State) (token : Token) : Step :=
  let clear := state.popDownTo Element.isRowContext
  let leave (next : State → Step) : Step :=
    if state.nameInScope Element.boundsTable "tr" then next (clear.pop.withMode .inTableBody)
    else .done state
  match token with
  | .startTag tag =>
      if tag.name = "th" || tag.name = "td" then
        .done ((clear.openTag tag).withMode .inCell).addMarker
      else if tablePartNames.contains tag.name then leave .again
      else state.inTable token
  | .endTag tag =>
      if tag.name = "tr" then leave .done
      else if tag.name = "table" then leave .again
      else if ["tbody", "tfoot", "thead"].contains tag.name then
        if state.nameInScope Element.boundsTable tag.name then
          if state.nameInScope Element.boundsTable "tr" then leave .again
          else .again (state.withMode .inTableBody)
        else .done state
      else if ["body", "caption", "col", "colgroup", "html", "td", "th"].contains tag.name then
        .done state
      else state.inTable token
  | _ => state.inTable token

def inCell (state : State) (token : Token) : Step :=
  match token with
  | .startTag tag =>
      if tablePartNames.contains tag.name then
        if state.inScope Element.boundsTable Element.isCell then
          .again (state.closeCell.withMode .inRow)
        else .done state
      else state.inBody token
  | .endTag tag =>
      if tag.name = "td" || tag.name = "th" then
        if state.nameInScope Element.boundsTable tag.name then
          .done ((state.closeOptional.popThroughName tag.name).clearFormatting.withMode .inRow)
        else .done state
      else if ["body", "caption", "col", "colgroup", "html"].contains tag.name then .done state
      else if ["table", "tbody", "tfoot", "thead", "tr"].contains tag.name then
        if state.nameInScope Element.boundsTable tag.name then
          .again (state.closeCell.withMode .inRow)
        else .done state
      else state.inBody token
  | _ => state.inBody token

end State

end Bindery.Html
