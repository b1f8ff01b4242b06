import Bindery.Html.Construction.Table

/-!
# In selections and templates
-/

set_option autoImplicit false

namespace Bindery.Html.State

/-- Closes the innermost element if it is of the name. -/
def popName (state : State) (name : String) : State :=
  if state.current.isHtml name then state.pop else state

def closeSelect (state : State) : State := (state.popThroughName "select").resetMode

def endOptionGroup (state : State) : State :=
  let group? :=
    match state.opened with
    | _ :: below :: _ => (state.element below).isHtml "optgroup"
    | _ => false
  let state := if group? then state.popName "option" else state
  state.popName "optgroup"

def inSelect (state : State) : Token → Step
  | .blank content => .done (state.insertText content)
  | .text content => .done (state.insertText content)
  | .comment content => .done (state.insertComment content)
  | .startTag tag =>
      let inScope := state.nameInScope Element.boundsSelect "select"
      if tag.name = "html" then .done (state.mergeRoot tag)
      else if tag.name = "option" then .done ((state.popName "option").openTag tag)
      else if tag.name = "optgroup" then
        .done (((state.popName "option").popName "optgroup").openTag tag)
      else if tag.name = "hr" then
        .done (((state.popName "option").popName "optgroup").insertClosed tag.element)
      else if tag.name = "select" then .done (if inScope then state.closeSelect else state)
      else if ["input", "keygen", "textarea"].contains tag.name then
        if inScope then .again state.closeSelect else .done state
      else if tag.name = "script" || tag.name = "template" then .done (state.sharedStart tag)
      else .done state
  | .endTag tag =>
      if tag.name = "optgroup" then .done state.endOptionGroup
      else if tag.name = "option" then .done (state.popName "option")
      else if tag.name = "select" then
        .done (if state.nameInScope Element.boundsSelect "select" then state.closeSelect
          else state)
      else if tag.name = "template" then .done state.closeTemplate
      else .done state
  | .finish => state.finishInBody
  | .null => .done state
  | .doctype _ => .done state

def inSelectInTable (state : State) (token : Token) : Step :=
  let parts := ["caption", "table", "tbody", "tfoot", "thead", "tr", "td", "th"]
  match token with
  | .startTag tag =>
      if parts.contains tag.name then .again state.closeSelect else state.inSelect token
  | .endTag tag =>
      if parts.contains tag.name then
        if state.nameInScope Element.boundsTable tag.name then .again state.closeSelect
        else .done state
      else state.inSelect token
  | _ => state.inSelect token

/-- What a template contains is of the kind that its first tag shows. -/
def turnTemplate (state : State) (mode : Mode) : Step :=
  .again { state with templateModes := mode :: state.templateModes.tail, mode := mode }

def inTemplate (state : State) (token : Token) : Step :=
  match token with
  | .blank _ => state.inBody token
  | .text _ => state.inBody token
  | .comment _ => state.inBody token
  | .startTag tag =>
      if sharedStarts.contains tag.name then .done (state.sharedStart tag)
      else if ["caption", "colgroup", "tbody", "tfoot", "thead"].contains tag.name then
        state.turnTemplate .inTable
      else if tag.name = "col" then state.turnTemplate .inColumns
      else if tag.name = "tr" then state.turnTemplate .inTableBody
      else if tag.name = "td" || tag.name = "th" then state.turnTemplate .inRow
      else state.turnTemplate .inBody
  | .endTag tag => .done (if tag.name = "template" then state.closeTemplate else state)
  | .finish => state.finishInTemplate
  | .null => .done state
  | .doctype _ => .done state

end Bindery.Html.State
