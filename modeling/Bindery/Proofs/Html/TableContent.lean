import Bindery.Proofs.Html.FlowContent

/-!
# Content of tables and selections

Between the parts of a table and between the options of a selection only some content may stand.
With that, every token adds what it shows, whatever is open.
-/

set_option autoImplicit false

namespace Bindery.Html

/-- The modes between the parts of a table. -/
def Mode.isTable : Mode → Bool
  | .inTable | .inColumns | .inTableBody | .inRow => true
  | _ => false

/-- Between the parts of a table stand other parts and what is not shown. Forms do not nest. -/
def State.fitsTable (state : State) : Token → Bool
  | .startTag tag =>
      (tablePartNames ++ ["style", "script"]).contains tag.name ||
        (tag.name == "input" && tag.isHidden) || (tag.name == "form" && state.form?.isNone)
  | .endTag tag => ("table" :: tablePartNames).contains tag.name
  | .text _ | .doctype _ => false
  | _ => true

namespace State

/-- A selection holds options. -/
def fitsSelection : Token → Bool
  | .startTag tag => ["option", "optgroup", "hr", "script"].contains tag.name
  | .endTag tag => !("template" :: "table" :: tablePartNames).contains tag.name
  | .doctype _ => false
  | _ => true

def fitsText : Token → Bool
  | .startTag _ | .doctype _ => false
  | _ => true

/-- Ordinary content. A part of a table ends the part that the content stands in. -/
def fitsFlow (state : State) (mode : Mode) : Token → Bool
  | .startTag tag =>
      state.startFitsFlow tag ||
        ([.inCaption, .inCell].contains mode && tablePartNames.contains tag.name)
  | .endTag tag =>
      !rootNames.contains tag.name && (!reopenedNames.contains tag.name || !state.splits tag.name)
  | .doctype _ => false
  | _ => true

def fitsHere (state : State) (token : Token) : Bool :=
  match state.situation with
  | .text _ => fitsText token
  | .rules mode =>
      if mode.isTable then state.fitsTable token
      else if mode.isSelection then fitsSelection token
      else state.fitsFlow mode token

/-- The token stands where content of its kind may stand. -/
def fits (state : State) (token : Token) : Bool :=
  match token with
  | .startTag tag =>
      if state.isForeign token then !tag.endsForeign || state.leaveForeign.fitsHere token
      else state.fitsHere token
  | _ => state.fitsHere token

end State

/-! ## Where a mode begins -/

namespace Context

variable {element : Nat → Element} {base : Base} {mode : Mode} {nodes : List Nat}

/-- The element that a mode begins with, and what is open inside it and around it. -/
theorem exists_opener (context : Context element base (.rules mode) nodes)
    (inner : mode ∉ [Mode.afterHead, .inHead, .inBody]) :
    ∃ above node rest outer, nodes = above ++ node :: rest ∧
      (∀ other ∈ above, (element other).isDecisive = false) ∧
      (above = [] ∨ (mode.isFlow || mode.isSelection) = true) ∧
      (element node).isDecisive = true ∧ Opens (element node) outer mode ∧
      Context element base (.rules outer) rest := by
  induction nodes with
  | nil => cases context
  | cons node rest ih =>
      cases context with
      | root | head | body => exact absurd (by decide) inner
      | @inside _ outer _ _ _ opens around =>
          cases decisive : (element node).isDecisive with
          | true => exact ⟨[], node, rest, outer, rfl, by simp, .inl rfl, decisive, opens, around⟩
          | false =>
              obtain ⟨rfl, holds⟩ := opens.of_indecisive decisive
              obtain ⟨above, opener, others, outer, rfl, plain, -, own, opens', further⟩ :=
                ih around
              refine ⟨node :: above, opener, others, outer, rfl,
                List.forall_mem_cons.mpr ⟨decisive, plain⟩, .inr holds, own, opens', further⟩

theorem inTable (context : Context element base (.rules .inTable) nodes) :
    ∃ table rest outer, nodes = table :: rest ∧ (element table).isHtml "table" = true ∧
      outer.isFlow = true ∧ Context element base (.rules outer) rest := by
  cases context with
  | inside opens around =>
      cases opens with
      | content holds => cases holds
      | select _ selects => cases selects
      | table flow named => exact ⟨_, _, _, rfl, named, flow, around⟩

theorem inColumns (context : Context element base (.rules .inColumns) nodes) :
    ∃ columns rest, nodes = columns :: rest ∧ (element columns).isHtml "colgroup" = true ∧
      Context element base (.rules .inTable) rest := by
  cases context with
  | inside opens around =>
      cases opens with
      | content holds => cases holds
      | select _ selects => cases selects
      | columns named => exact ⟨_, _, rfl, named, around⟩

theorem inTableBody (context : Context element base (.rules .inTableBody) nodes) :
    ∃ part rest, nodes = part :: rest ∧
      (element part).isOneOf ["tbody", "tfoot", "thead"] = true ∧
      Context element base (.rules .inTable) rest := by
  cases context with
  | inside opens around =>
      cases opens with
      | content holds => cases holds
      | select _ selects => cases selects
      | «section» named => exact ⟨_, _, rfl, named, around⟩

theorem inRow (context : Context element base (.rules .inRow) nodes) :
    ∃ row rest, nodes = row :: rest ∧ (element row).isHtml "tr" = true ∧
      Context element base (.rules .inTableBody) rest := by
  cases context with
  | inside opens around =>
      cases opens with
      | content holds => cases holds
      | select _ selects => cases selects
      | row named => exact ⟨_, _, rfl, named, around⟩

theorem inCell (context : Context element base (.rules .inCell) nodes) :
    ∃ above cell rest, nodes = above ++ cell :: rest ∧
      (∀ other ∈ above, (element other).isDecisive = false) ∧ (element cell).isCell = true ∧
      Context element base (.rules .inRow) rest := by
  obtain ⟨above, cell, rest, outer, opened, plain, -, decisive, opens, around⟩ :=
    context.exists_opener (by decide)
  cases opens with
  | content _ indecisive => rw [decisive] at indecisive; cases indecisive
  | select _ selects => cases selects
  | cell named => exact ⟨above, cell, rest, opened, plain, named, around⟩

theorem inCaption (context : Context element base (.rules .inCaption) nodes) :
    ∃ above caption rest, nodes = above ++ caption :: rest ∧
      (∀ other ∈ above, (element other).isDecisive = false) ∧
      (element caption).isHtml "caption" = true ∧ Context element base (.rules .inTable) rest := by
  obtain ⟨above, caption, rest, outer, opened, plain, -, decisive, opens, around⟩ :=
    context.exists_opener (by decide)
  cases opens with
  | content _ indecisive => rw [decisive] at indecisive; cases indecisive
  | select _ selects => cases selects
  | caption named => exact ⟨above, caption, rest, opened, plain, named, around⟩

theorem inSelection (context : Context element base (.rules mode) nodes)
    (selects : mode.isSelection = true) :
    ∃ above select rest outer, nodes = above ++ select :: rest ∧
      (∀ other ∈ above, (element other).isDecisive = false) ∧
      (element select).isHtml "select" = true ∧ outer.isFlow = true ∧
      Context element base (.rules outer) rest := by
  have inner : mode ∉ [Mode.afterHead, .inHead, .inBody] := by
    revert selects
    cases mode <;> decide
  obtain ⟨above, select, rest, outer, opened, plain, -, decisive, opens, around⟩ :=
    context.exists_opener inner
  cases opens with
  | content _ indecisive => rw [decisive] at indecisive; cases indecisive
  | select flow _ named => exact ⟨above, select, rest, outer, opened, plain, named, flow, around⟩
  | _ => cases selects

/-- In the body everything is read by the rules for a table, a selection or ordinary content. -/
theorem settled {node : Nat} (context : Context element (.body node) (.rules mode) nodes) :
    mode.isFlow = true ∨ mode.isSelection = true ∨ mode.isTable = true := by
  cases context with
  | body => exact .inl rfl
  | inside opens =>
      cases opens with
      | content holds => exact ((Bool.or_eq_true _ _).mp holds).imp_right .inl
      | select _ selects => exact .inr (.inl selects)
      | caption | cell => exact .inl rfl
      | table | columns | row | «section» => exact .inr (.inr rfl)

end Context

theorem Step.Lands.again {base : Base} {state next : State} {token : Token} {attempts : Nat}
    (unread : ∃ extra, state.arena.Extension next.arena extra ∧ Supplies [] extra)
    (lands : (next.step token).Lands base next token attempts) :
    (Step.again next).Lands base state token (attempts + 1) := by
  intro more
  obtain ⟨sits, extra, extended, supplies⟩ := State.settle_lands lands more
  obtain ⟨before, first, others⟩ := unread
  exact ⟨sits, _, first.trans extended, others.append supplies⟩

theorem Step.Lands.after {base below : Base} {situation : Situation} {state next : State}
    {token : Token} {attempts : Nat} {step : Step} (reaches : state.Reaches below situation next [])
    (lands : step.Lands base next token attempts) : step.Lands base state token attempts := by
  cases step with
  | done last => exact State.Lands.after reaches lands
  | again last => exact fun more => State.Lands.after reaches (lands more)

theorem Step.Lands.ite {base : Base} {state : State} {token : Token} {attempts : Nat}
    {condition : Prop} [Decidable condition] {step other : Step}
    (yes : condition → step.Lands base state token attempts)
    (no : ¬ condition → other.Lands base state token attempts) :
    (if condition then step else other).Lands base state token attempts := by
  split
  · next holds => exact yes holds
  · next fails => exact no fails

namespace State

variable {base : Base} {situation : Situation} {state : State} {mode : Mode} {token : Token}
  {tag : Tag}

theorem popDownTo_eq {node : Nat} {rest : List Nat} (opened : state.opened = node :: rest)
    {wanted : Element → Bool} (hit : wanted (state.element node) = true) :
    state.popDownTo wanted = state := by
  change ({ state with opened := _ } : State) = state
  rw [opened, List.dropWhile_cons_of_neg (by simp [hit]), ← opened]

theorem findsOpen_of_append {bounds : Element → Bool} {wanted : Nat → Element → Bool}
    {above rest : List Nat} {node : Nat}
    (inner : ∀ other ∈ above, bounds (state.element other) = false)
    (hit : wanted node (state.element node) = true) :
    state.findsOpen bounds wanted (above ++ node :: rest) = true := by
  induction above with
  | nil => rw [List.nil_append, findsOpen, hit, Bool.true_or]
  | cons other above ih =>
      obtain ⟨own, others⟩ := List.forall_mem_cons.mp inner
      rw [List.cons_append, findsOpen, own, ih others]
      simp

theorem findsOpen_of_missed {bounds : Element → Bool} {wanted : Nat → Element → Bool}
    {above rest : List Nat} (missed : ∀ other ∈ above, wanted other (state.element other) = false)
    (found : state.findsOpen bounds wanted (above ++ rest) = true) :
    state.findsOpen bounds wanted rest = true := by
  induction above with
  | nil => exact found
  | cons other above ih =>
      obtain ⟨own, others⟩ := List.forall_mem_cons.mp missed
      rw [List.cons_append, findsOpen, own, Bool.false_or, Bool.and_eq_true] at found
      exact ih others found.2

theorem isForeign_of_html (html : state.current.space = .html) : state.isForeign token = false := by
  unfold State.isForeign
  dsimp only
  rw [if_pos html]

theorem step_of_html (html : state.current.space = .html) :
    state.step token = state.stepIn token := by
  rw [State.step, isForeign_of_html html, if_neg Bool.noConfusion]

theorem step_tableText (html : state.current.space = .html) (same : state.mode = .inTableText) :
    state.step token = state.inTableText token := by
  rw [step_of_html html, State.stepIn, same]

namespace Laid

theorem entered {next : State} (reaches : state.Reaches base (.rules mode) next []) :
    (next.withMode mode).Laid base (.rules mode) :=
  reaches.laid.same ⟨rfl, rfl, rfl, rfl, rfl, rfl, rfl⟩

theorem step_eq_stepIn (laid : state.Laid base (.rules mode)) (table : mode.isTable = true) :
    state.step token = state.stepIn token := by
  have inner : mode ∉ [Mode.afterHead, .inHead, .inBody] := by
    revert table
    cases mode <;> decide
  obtain ⟨above, node, rest, outer, opened, -, none, decisive, -, -⟩ :=
    laid.context.exists_opener inner
  have content : ¬ (mode.isFlow || mode.isSelection) = true := by
    revert table
    cases mode <;> decide
  obtain rfl := none.resolve_right content
  refine step_of_html ?_
  rw [State.current, opened]
  simp only [Element.isDecisive, Element.isOneOf, Bool.and_eq_true, decide_eq_true_eq] at decisive
  exact decisive.1

/-- A part of a table is closed. -/
theorem closePart (laid : state.Laid base situation) {node : Nat} {rest : List Nat}
    (opened : state.opened = node :: rest)
    (around : Context state.element base (.rules mode) rest) :
    state.Reaches base (.rules mode) state.pop [] := by
  refine laid.closing (List.tail_sublist _) ?_
  rwa [opened]

theorem closeText (laid : state.Laid base (.text mode)) :
    state.Reaches base (.rules mode) state.pop [] := by
  obtain ⟨node, rest, opened⟩ := laid.context.exists_cons
  have context := laid.context
  rw [opened] at context
  cases context with
  | text _ _ around => exact laid.closePart opened around

theorem openPart (laid : state.Laid base (.rules mode)) {inner : Mode}
    (opens : Opens tag.element mode inner) (other : tag.name ≠ "template") :
    state.Lands base ((state.openTag tag).withMode inner) [tag.item] := by
  have opened := laid.openTag opens other
  rw [tag.item_element] at opened
  exact opened.landsIn

/-- A part whose tag has been left out. -/
theorem openName (laid : state.Laid base (.rules mode)) {inner : Mode} {name : String}
    (opens : Opens (.ofName name []) mode inner) (other : name ≠ "template")
    (plain : [(Element.ofName name []).item].filter Item.isWritten = []) :
    state.Reaches base (.rules inner) (state.openName name) [] := by
  refine (laid.insertOpen ?_ ?_).1.quiet plain
  · simp [Element.isHtml, Element.ofName, other]
  · intro element nodes own context
    exact .inside (own ▸ opens) context

/-! ### Tables -/

/-- The parts of a table and what is read in the same way between them. -/
theorem pendBlank (laid : state.Laid base (.rules mode))
    (table : mode ∈ [.inTable, .inTableBody, .inRow]) (same : state.mode = mode)
    (fosters : state.current.fosters = true)
    (blank : token = .null ∨ ∃ content, token = .blank content) (attempts : Nat) :
    (state.tableText token).Lands base state token (attempts + 1) := by
  have html : state.current.space = .html := by
    simp only [Element.fosters, Element.isOneOf, Bool.and_eq_true, decide_eq_true_eq] at fosters
    exact fosters.1
  rw [State.tableText, if_pos fosters]
  have kept : ∀ {pending : List (Bool × String)}, (∀ part ∈ pending, part.1 = true) →
      State.Sits base
        { state with returnMode := state.mode, mode := .inTableText, pending := pending } := by
    intro pending blanks
    subst same
    refine ⟨?_, fun _ => table⟩
    have waiting : { state with pending := pending }.Laid base (.rules state.mode) :=
      { laid with pending := blanks }
    exact waiting.same ⟨rfl, rfl, rfl, rfl, rfl, rfl, rfl⟩
  refine .again ⟨_, .refl _, .refl _⟩ ?_
  rw [step_tableText]
  · rcases blank with rfl | ⟨content, rfl⟩
    · exact ⟨kept laid.pending, _, .refl _, .refl _⟩
    · refine ⟨kept fun part member => ?_, _, .refl _, .refl _⟩
      rcases List.mem_cons.mp member with rfl | before
      · rfl
      · exact laid.pending part before
  · exact html
  · rfl

/-- A form in a table holds nothing. -/
theorem closedForm (laid : state.Laid base (.rules mode)) (plain : tag.name ∉ decisiveNames) :
    state.Reaches base (.rules mode)
      { (state.insertOpen tag.element).1 with form? := some (state.insertOpen tag.element).2 }.pop
      [tag.item] := by
  have indecisive := isDecisive_element plain
  obtain ⟨opened, own⟩ := laid.insertOpen (Element.isHtml_eq_false indecisive (by decide))
    fun same context => .text (same ▸ indecisive) (same ▸ rfl) context
  rw [tag.item_element] at opened
  have formed : State.Reaches base (.text mode) state
      { (state.insertOpen tag.element).1 with form? := some (state.insertOpen tag.element).2 }
      [tag.item] := by
    refine ⟨{ opened.laid with form := ?_ }, opened.shows, opened.mode⟩
    rintro node ⟨⟩
    exact ⟨_, own, indecisive⟩
  exact formed.trans formed.laid.closeText

/-- What is read in the same way between all parts of a table. -/
theorem betweenParts (laid : state.Laid base (.rules mode))
    (table : mode ∈ [.inTable, .inTableBody, .inRow]) (same : state.mode = mode)
    (fosters : state.current.fosters = true) (fits : state.fitsTable token = true)
    (starts : ∀ tag, token = .startTag tag → tag.name ∉ tablePartNames)
    (ends : ∀ tag, token ≠ .endTag tag) (attempts : Nat) :
    (state.inTable token).Lands base state token (attempts + 1) := by
  cases token with
  | null => exact laid.pendBlank table same fosters (.inl rfl) attempts
  | blank content => exact laid.pendBlank table same fosters (.inr ⟨content, rfl⟩) attempts
  | text | doctype => cases fits
  | comment content => exact (laid.insertComment content).lands same
  | endTag tag => exact absurd rfl (ends tag)
  | finish =>
      rw [State.inTable, State.finishInBody, laid.templates]
      exact laid.reaches.lands same
  | startTag tag =>
      have other := starts tag rfl
      simp only [fitsTable, Bool.or_eq_true, Bool.and_eq_true, beq_iff_eq, List.contains_iff_mem,
        List.mem_append, Option.isNone_iff_eq_none] at fits
      have excluded : ∀ {names : List String}, names ⊆ tablePartNames →
          ¬ names.contains tag.name = true := fun part member =>
        other (part (List.contains_iff_mem.mp member))
      have apart : ∀ {name}, name ∈ tablePartNames → tag.name ≠ name := by
        rintro name member rfl
        exact other member
      rw [State.inTable, State.startInTable]
      refine .ite (fun part => absurd part (apart (by decide))) fun _ => ?_
      refine .ite (fun part => absurd part (apart (by decide))) fun _ => ?_
      refine .ite (fun part => absurd part (apart (by decide))) fun _ => ?_
      refine .ite (fun part => absurd part (excluded (by decide))) fun _ => ?_
      refine .ite (fun part => absurd part (excluded (by decide))) fun _ => ?_
      refine .ite (fun table => ?_) fun _ => ?_
      · simp [table, tablePartNames] at fits
      refine .ite (fun shared => ?_) fun unshared => ?_
      · have known : tag.name ∈ ["style", "script", "template"] := List.contains_iff_mem.mp shared
        have names : ∀ name ∈ ["style", "script", "template"], name ∈ leadingNames := by decide
        refine laid.sharedStart same (names _ known) fun template => ?_
        simp [template, tablePartNames] at fits
      refine .ite (fun hidden => ?_) fun shown => ?_
      · rw [Bool.and_eq_true, decide_eq_true_eq] at hidden
        exact (laid.closedTag (hidden.1 ▸ by decide)).lands same
      refine .ite (fun form => ?_) fun notForm => ?_
      · have none : state.form? = none := by simpa [form, tablePartNames] using fits
        rw [laid.hasOpen_template, none]
        exact (laid.closedForm (form ▸ by decide)).lands same
      exfalso
      rcases fits with ((part | text) | hidden) | ⟨form, -⟩
      · exact other part
      · refine unshared (List.contains_iff_mem.mpr ?_)
        simp only [List.mem_cons, List.not_mem_nil, or_false] at text ⊢
        exact text.elim .inl fun script => .inr (.inl script)
      · exact shown (by simpa using hidden)
      · exact notForm form

theorem stepCellInRow (laid : state.Laid base (.rules .inRow)) (same : state.mode = .inRow)
    (cell : tag.name ∈ ["td", "th"]) (attempts : Nat) :
    (state.step (.startTag tag)).Lands base state (.startTag tag) attempts := by
  obtain ⟨row, rest, opened, named, -⟩ := laid.context.inRow
  have clear : state.popDownTo Element.isRowContext = state := by
    refine popDownTo_eq opened ?_
    simp only [Element.isHtml, Bool.and_eq_true, decide_eq_true_eq] at named
    simp [Element.isRowContext, Element.isOneOf, named]
  have either : (decide (tag.name = "th") || decide (tag.name = "td")) = true := by
    simpa [or_comm] using cell
  have own : tag.element.isCell = true := by
    simpa [Element.isCell, Element.isOneOf, Tag.element, Element.ofName] using cell
  rw [laid.step_eq_stepIn rfl, State.stepIn, same]
  dsimp only
  rw [State.inRow, if_pos either, clear]
  have other : tag.name ≠ "template" := fun template => by simp [template] at cell
  have opened := laid.openTag (.cell own) other
  rw [tag.item_element] at opened
  exact (opened.trans opened.laid.addMarker).landsIn

theorem stepInRowOfTableBody (laid : state.Laid base (.rules .inTableBody))
    (same : state.mode = .inTableBody) (part : tag.name ∈ ["td", "th", "tr"]) (attempts : Nat) :
    (state.step (.startTag tag)).Lands base state (.startTag tag) (attempts + 1) := by
  obtain ⟨body, rest, opened, named, -⟩ := laid.context.inTableBody
  have clear : state.popDownTo Element.isSectionContext = state :=
    popDownTo_eq opened (Element.isOneOf_mono named (by decide))
  rw [laid.step_eq_stepIn rfl, State.stepIn, same]
  dsimp only
  rw [State.inTableBody, clear]
  refine .ite (fun row => ?_) fun notRow => .ite (fun cell => ?_) fun notCell => ?_
  · exact laid.openPart (.row (by simp [Element.isHtml, Tag.element, Element.ofName, row]))
      (row ▸ by decide)
  · have opened : state.Reaches base (.rules .inRow) (state.openName "tr") [] :=
      laid.openName (.row (by decide)) (by decide) (by decide)
    have cells : tag.name ∈ ["td", "th"] := by simpa [or_comm] using cell
    exact .again opened.shows ((entered opened).stepCellInRow rfl cells attempts)
  · simp only [List.mem_cons, List.not_mem_nil, or_false] at part
    simp only [Bool.or_eq_true, decide_eq_true_eq, not_or] at notCell
    exact (part.elim notCell.2 fun other => other.elim notCell.1 notRow).elim

theorem stepColumn (laid : state.Laid base (.rules .inColumns)) (same : state.mode = .inColumns)
    (column : tag.name = "col") (attempts : Nat) :
    (state.step (.startTag tag)).Lands base state (.startTag tag) attempts := by
  rw [laid.step_eq_stepIn rfl, State.stepIn, same]
  dsimp only
  rw [State.inColumns, if_neg (column ▸ by decide), if_pos column]
  exact (laid.closedTag (column ▸ by decide)).lands same

/-- Behind a table or a selection, ordinary content goes on as before it. -/
theorem leave (laid : state.Laid base situation) {wanted : Element → Bool}
    {above rest : List Nat} {node : Nat} (opened : state.opened = above ++ node :: rest)
    (missed : ∀ other ∈ above, wanted (state.element other) = false)
    (hit : wanted (state.element node) = true) (flow : mode.isFlow = true)
    (around : Context state.element base (.rules mode) rest) :
    state.Lands base (state.popThrough wanted).resetMode [] := by
  have closed := laid.closeThrough opened missed hit around
  rw [State.resetMode, closed.laid.context.modeFor flow rfl]
  exact closed.landsIn

theorem stepInTable (laid : state.Laid base (.rules .inTable)) (same : state.mode = .inTable)
    (fits : state.fitsTable token = true) (attempts : Nat) :
    (state.step token).Lands base state token (attempts + 2) := by
  obtain ⟨table, rest, outer, opened, named, flow, around⟩ := laid.context.inTable
  have html : (state.element table).space = .html ∧ (state.element table).name = "table" := by
    simpa [Element.isHtml] using named
  have current : state.current = state.element table := by rw [State.current, opened]; rfl
  have fosters : state.current.fosters = true := by
    simp [current, Element.fosters, Element.isOneOf, html]
  have clear : state.popDownTo Element.boundsTable = state :=
    popDownTo_eq opened (by simp [Element.boundsTable, Element.isOneOf, html])
  rw [laid.step_eq_stepIn rfl, State.stepIn, same]
  dsimp only
  cases token with
  | null | blank | text | comment | doctype | finish =>
      exact laid.betweenParts (by decide) same fosters fits (by rintro _ ⟨⟩) (by rintro _ ⟨⟩) _
  | endTag tag =>
      refine .ite (fun _ => .ite (fun _ => ?_) fun _ => laid.reaches.lands same) fun notTable => ?_
      · have top : state.opened = [] ++ table :: rest := opened
        exact laid.leave top (by rintro _ ⟨⟩) named flow around
      · have names : ∀ name ∈ tablePartNames, name ∈ ["body", "caption", "col", "colgroup", "html",
            "tbody", "td", "tfoot", "th", "thead", "tr"] := by decide
        have part : tag.name ∈ "table" :: tablePartNames := List.contains_iff_mem.mp fits
        have listed := names _ ((List.mem_cons.mp part).resolve_left notTable)
        rw [if_pos (List.contains_iff_mem.mpr listed)]
        exact laid.reaches.lands same
  | startTag tag =>
      by_cases part : tag.name ∈ tablePartNames
      · have other : tag.name ≠ "template" := fun template => absurd (template ▸ part) (by decide)
        rw [State.inTable, State.startInTable, clear]
        refine .ite (fun caption => ?_) fun notCaption => ?_
        · have marked := laid.addMarker
          have opens : Opens tag.element .inTable .inCaption :=
            .caption (by simp [Element.isHtml, Tag.element, Element.ofName, caption])
          exact Lands.after marked (marked.laid.openPart opens other)
        refine .ite (fun columns => ?_) fun notColumns => ?_
        · exact laid.openPart
            (.columns (by simp [Element.isHtml, Tag.element, Element.ofName, columns])) other
        refine .ite (fun column => ?_) fun notColumn => ?_
        · have opened : state.Reaches base (.rules .inColumns) (state.openName "colgroup") [] :=
            laid.openName (.columns (by decide)) (by decide) (by decide)
          exact .again opened.shows ((entered opened).stepColumn rfl column _)
        refine .ite (fun body => ?_) fun notBody => ?_
        · refine laid.openPart (.section ?_) other
          simpa [Element.isOneOf, Tag.element, Element.ofName] using body
        refine .ite (fun row => ?_) fun notRow => ?_
        · have opened : state.Reaches base (.rules .inTableBody) (state.openName "tbody") [] :=
            laid.openName (.section (by decide)) (by decide) (by decide)
          exact .again opened.shows ((entered opened).stepInRowOfTableBody rfl
            (List.contains_iff_mem.mp row) _)
        simp only [List.contains_iff_mem, List.mem_cons, List.not_mem_nil, or_false, not_or]
          at notBody notRow
        simp [tablePartNames, notCaption, notColumns, notColumn, notBody, notRow] at part
      · refine laid.betweenParts (by decide) same fosters fits ?_ (by rintro _ ⟨⟩) _
        rintro _ ⟨⟩
        exact part

theorem stepInColumns (laid : state.Laid base (.rules .inColumns)) (same : state.mode = .inColumns)
    (fits : state.fitsTable token = true) (attempts : Nat) :
    (state.step token).Lands base state token (attempts + 3) := by
  obtain ⟨columns, rest, opened, named, around⟩ := laid.context.inColumns
  have current : state.current.isHtml "colgroup" = true := by
    rw [State.current, opened]
    exact named
  have closed := laid.closePart opened around
  have other : (Step.again (state.pop.withMode .inTable)).Lands base state token (attempts + 3) :=
    .again closed.shows ((entered closed).stepInTable rfl (by cases token <;> exact fits) _)
  by_cases column : ∃ tag, token = .startTag tag ∧ tag.name = "col"
  · obtain ⟨tag, rfl, column⟩ := column
    exact laid.stepColumn same column _
  rw [laid.step_eq_stepIn rfl, State.stepIn, same]
  dsimp only
  unfold State.inColumns
  rw [if_pos current]
  cases token with
  | blank content => exact (laid.insertBlank content).lands same
  | comment content => exact (laid.insertComment content).lands same
  | finish =>
      rw [State.finishInBody, laid.templates]
      exact laid.reaches.lands same
  | text | null | doctype => exact other
  | startTag tag =>
      have notColumn : tag.name ≠ "col" := fun named => column ⟨tag, rfl, named⟩
      refine .ite (fun root => ?_) fun _ => ?_
      · simp [fitsTable, root, tablePartNames] at fits
      refine .ite (fun named => absurd named notColumn) fun _ =>
        .ite (fun template => ?_) fun _ => other
      simp [fitsTable, template, tablePartNames] at fits
  | endTag tag =>
      refine .ite (fun _ => ?_) fun _ => .ite (fun _ => laid.reaches.lands same) fun _ =>
        .ite (fun template => ?_) fun _ => other
      · rw [if_pos current]
        exact closed.landsIn
      · simp [fitsTable, template, tablePartNames] at fits

theorem stepInTableBody (laid : state.Laid base (.rules .inTableBody))
    (same : state.mode = .inTableBody) (fits : state.fitsTable token = true) (attempts : Nat) :
    (state.step token).Lands base state token (attempts + 3) := by
  obtain ⟨body, rest, opened, named, around⟩ := laid.context.inTableBody
  obtain ⟨table, further, -, rfl, within, -, -⟩ := around.inTable
  have current : state.current = state.element body := by rw [State.current, opened]; rfl
  have fosters : state.current.fosters = true := by
    rw [current]
    exact Element.isOneOf_mono named (by decide)
  have clear : state.popDownTo Element.isSectionContext = state :=
    popDownTo_eq opened (Element.isOneOf_mono named (by decide))
  have inScope : state.inScope Element.boundsTable (·.isOneOf ["table", "tbody", "tfoot"]) =
      true := by
    rw [State.inScope, opened]
    have inner : ∀ other ∈ [body], (state.element other).boundsTable = false := by
      intro other member
      rw [List.mem_singleton.mp member]
      exact Element.isOneOf_disjoint named (by decide)
    refine findsOpen_of_append inner ?_
    simp only [Element.isHtml, Bool.and_eq_true, decide_eq_true_eq] at within
    simp [Element.isOneOf, within]
  have closed := laid.closePart opened around
  have leave : (Step.again (state.pop.withMode .inTable)).Lands base state token (attempts + 3) :=
    .again closed.shows ((entered closed).stepInTable rfl (by cases token <;> exact fits) _)
  by_cases row : ∃ tag, token = .startTag tag ∧ tag.name ∈ ["td", "th", "tr"]
  · obtain ⟨tag, rfl, row⟩ := row
    exact laid.stepInRowOfTableBody same row _
  rw [laid.step_eq_stepIn rfl, State.stepIn, same]
  dsimp only
  unfold State.inTableBody
  dsimp only
  rw [if_pos inScope, clear]
  cases token with
  | null | blank | text | comment | doctype | finish =>
      exact laid.betweenParts (by decide) same fosters fits (by rintro _ ⟨⟩) (by rintro _ ⟨⟩) _
  | startTag tag =>
      have others : tag.name ∉ ["td", "th", "tr"] := fun part => row ⟨tag, rfl, part⟩
      simp only [List.mem_cons, List.not_mem_nil, or_false, not_or] at others
      refine .ite (fun row => absurd row others.2.2) fun _ => .ite (fun cell => ?_) fun _ =>
        .ite (fun _ => leave) fun other => ?_
      · simp [others] at cell
      · refine laid.betweenParts (by decide) same fosters fits ?_ (by rintro _ ⟨⟩) _
        rintro _ ⟨⟩ part
        have names : ∀ name ∈ tablePartNames, name ∈ ["td", "th", "tr"] ∨
            name ∈ ["caption", "col", "colgroup", "tbody", "tfoot", "thead"] := by decide
        rcases names _ part with row' | listed
        · exact row ⟨_, rfl, row'⟩
        · exact other (List.contains_iff_mem.mpr listed)
  | endTag tag =>
      refine .ite (fun _ => .ite (fun _ => closed.landsIn) fun _ => laid.reaches.lands same)
        fun notBody => .ite (fun _ => leave) fun notTable => .ite (fun _ => laid.reaches.lands same)
        fun other => ?_
      have names : ∀ name ∈ "table" :: tablePartNames, name ∈ ["tbody", "tfoot", "thead"] ∨
          name = "table" ∨
          name ∈ ["body", "caption", "col", "colgroup", "html", "td", "th", "tr"] := by decide
      rcases names _ (List.contains_iff_mem.mp fits) with part | table | part
      · exact absurd (List.contains_iff_mem.mpr part) notBody
      · exact absurd table notTable
      · exact absurd (List.contains_iff_mem.mpr part) other

theorem stepInRow (laid : state.Laid base (.rules .inRow)) (same : state.mode = .inRow)
    (fits : state.fitsTable token = true) (attempts : Nat) :
    (state.step token).Lands base state token (attempts + 4) := by
  obtain ⟨row, rest, opened, named, around⟩ := laid.context.inRow
  have current : state.current = state.element row := by rw [State.current, opened]; rfl
  have html : (state.element row).space = .html ∧ (state.element row).name = "tr" := by
    simpa [Element.isHtml] using named
  have fosters : state.current.fosters = true := by
    simp [current, Element.fosters, Element.isOneOf, html]
  have clear : state.popDownTo Element.isRowContext = state :=
    popDownTo_eq opened (by simp [Element.isRowContext, Element.isOneOf, html])
  have inScope : state.nameInScope Element.boundsTable "tr" = true := by
    rw [State.nameInScope, State.inScope, opened, State.findsOpen, named, Bool.true_or]
  have closed := laid.closePart opened around
  have leave : (Step.again (state.pop.withMode .inTableBody)).Lands base state token
      (attempts + 4) :=
    .again closed.shows ((entered closed).stepInTableBody rfl (by cases token <;> exact fits) _)
  by_cases cell : ∃ tag, token = .startTag tag ∧ tag.name ∈ ["td", "th"]
  · obtain ⟨tag, rfl, cell⟩ := cell
    exact laid.stepCellInRow same cell _
  rw [laid.step_eq_stepIn rfl, State.stepIn, same]
  dsimp only
  unfold State.inRow
  dsimp only
  rw [clear]
  cases token with
  | null | blank | text | comment | doctype | finish =>
      exact laid.betweenParts (by decide) same fosters fits (by rintro _ ⟨⟩) (by rintro _ ⟨⟩) _
  | startTag tag =>
      refine .ite (fun named => ?_) fun _ => .ite (fun _ => ?_) fun other => ?_
      · exact absurd ⟨tag, rfl, by simpa [or_comm] using named⟩ cell
      · rw [if_pos inScope]
        exact leave
      · refine laid.betweenParts (by decide) same fosters fits ?_ (by rintro _ ⟨⟩) _
        rintro _ ⟨⟩ part
        exact other (List.contains_iff_mem.mpr part)
  | endTag tag =>
      refine .ite (fun _ => .ite (fun _ => closed.landsIn) (absurd inScope)) fun notRow =>
        .ite (fun _ => .ite (fun _ => leave) (absurd inScope)) fun notTable =>
        .ite (fun _ => .ite (fun _ => .ite (fun _ => .ite (fun _ => leave) (absurd inScope))
          (absurd inScope)) fun _ => laid.reaches.lands same) fun notBody =>
        .ite (fun _ => laid.reaches.lands same) fun other => ?_
      have names : ∀ name ∈ "table" :: tablePartNames, name = "tr" ∨ name = "table" ∨
          name ∈ ["tbody", "tfoot", "thead"] ∨
          name ∈ ["body", "caption", "col", "colgroup", "html", "td", "th"] := by decide
      rcases names _ (List.contains_iff_mem.mp fits) with row | table | body | part
      · exact absurd row notRow
      · exact absurd table notTable
      · exact absurd (List.contains_iff_mem.mpr body) notBody
      · exact absurd (List.contains_iff_mem.mpr part) other

/-! ### Ordinary content, in a table or not -/

theorem starts_of_fitsFlow (fits : state.fitsFlow mode token = true)
    (other : ∀ tag, token = .startTag tag → mode = .inBody ∨ tag.name ∉ tablePartNames) :
    ∀ tag, token = .startTag tag → state.startFitsFlow tag = true := by
  rintro tag rfl
  simp only [fitsFlow, Bool.or_eq_true, Bool.and_eq_true, List.contains_iff_mem] at fits
  refine fits.resolve_right fun part => ?_
  rcases other tag rfl with rfl | apart
  · exact absurd part.1 (by decide)
  · exact apart part.2

theorem ends_of_fitsFlow (fits : state.fitsFlow mode token = true)
    (other : ∀ tag, token = .endTag tag →
      ∀ holder, mode.isHolder holder = true → holder.isHtml tag.name = false) :
    ∀ tag, token = .endTag tag → tag.name ∉ rootNames ∧
      (tag.name ∈ reopenedNames → state.splits tag.name = false) ∧
      ∀ holder, mode.isHolder holder = true → holder.isHtml tag.name = false := by
  rintro tag rfl
  simp only [fitsFlow, Bool.and_eq_true, Bool.or_eq_true, Bool.not_eq_true', ← Bool.not_eq_true,
    List.contains_iff_mem] at fits
  refine ⟨fits.1, fun known => ?_, other tag rfl⟩
  exact Bool.eq_false_iff.mpr (fits.2.resolve_left (absurd known))

theorem readInBody (laid : state.Laid base (.rules .inBody)) (same : state.mode = .inBody)
    (fits : state.fitsFlow .inBody token = true) (attempts : Nat) :
    (state.inBody token).Lands base state token attempts := by
  refine laid.inBody rfl same (starts_of_fitsFlow fits fun _ _ => .inl rfl) ?_ attempts
  refine ends_of_fitsFlow fits fun tag ended holder holds => ?_
  subst ended
  simp only [fitsFlow, Bool.and_eq_true, Bool.not_eq_true', ← Bool.not_eq_true,
    List.contains_iff_mem] at fits
  simp only [Mode.isHolder, Element.isHtml, Bool.or_eq_true, Bool.and_eq_true,
    decide_eq_true_eq] at holds
  have different : holder.name ≠ tag.name := by
    rintro same
    have root : holder.name ∈ rootNames := by
      rcases holds with ⟨-, body⟩ | ⟨-, html⟩
      · exact body ▸ by decide
      · exact html ▸ by decide
    exact fits.1 (same ▸ root)
  simp [Element.isHtml, different]

theorem readInCaption (laid : state.Laid base (.rules .inCaption)) (same : state.mode = .inCaption)
    (fits : state.fitsFlow .inCaption token = true) (attempts : Nat) :
    (state.inCaption token).Lands base state token (attempts + 3) := by
  obtain ⟨above, caption, rest, opened, plain, named, around⟩ := laid.context.inCaption
  have inner : ∀ other ∈ above, (state.element other).boundsTable = false := fun other member =>
    Element.isOneOf_eq_false (plain other member) (by decide)
  have inScope : state.nameInScope Element.boundsTable "caption" = true := by
    rw [State.nameInScope, State.inScope, opened]
    exact findsOpen_of_append inner named
  have closed : state.Reaches base (.rules .inTable)
      (state.closeOptional.popThroughName "caption").clearFormatting [] := by
    have missed : ∀ other ∈ above, (state.element other).isHtml "caption" = false :=
      fun other member => Element.isHtml_eq_false (plain other member) (by decide)
    have through : state.Reaches base (.rules .inTable) (state.popThroughName "caption") [] :=
      laid.closeThrough opened missed named around
    rw [popThroughName_closeOptional (by decide)]
    exact through.after through.laid.clearFormatting
  have leave : ∀ {token : Token}, state.fitsTable token = true →
      (Step.again ((state.closeOptional.popThroughName "caption").clearFormatting.withMode
        .inTable)).Lands base state token (attempts + 3) := by
    intro token fits
    exact .again closed.shows ((entered closed).stepInTable rfl (by cases token <;> exact fits) _)
  have content := fun starts ends => laid.inBody rfl same (starts_of_fitsFlow fits starts)
    (ends_of_fitsFlow fits ends) (attempts + 3)
  unfold State.inCaption
  dsimp only
  cases token with
  | null | blank | text | comment | doctype | finish =>
      exact content (by rintro _ ⟨⟩) (by rintro _ ⟨⟩)
  | startTag tag =>
      refine .ite (fun part => .ite (fun _ => leave ?_) (absurd inScope)) fun other => ?_
      · simp [fitsTable, List.contains_iff_mem.mp part]
      · refine content ?_ (by rintro _ ⟨⟩)
        rintro _ ⟨⟩
        exact .inr fun part => other (List.contains_iff_mem.mpr part)
  | endTag tag =>
      refine .ite (fun _ => .ite (fun _ => closed.landsIn) (absurd inScope)) fun other =>
        .ite (fun table => .ite (fun _ => leave ?_) (absurd inScope)) fun _ =>
        .ite (fun _ => laid.reaches.lands same) fun _ => content (by rintro _ ⟨⟩) ?_
      · simp [fitsTable, table]
      · rintro _ ⟨⟩ holder holds
        simp only [Mode.isHolder, Element.isHtml, Bool.and_eq_true, decide_eq_true_eq] at holds
        simp [Element.isHtml, holds.2, Ne.symm other]

/-- No cell is open between the parts of a table. -/
theorem not_findsOpen_cell {nodes : List Nat} {name : String}
    (context : Context state.element base (.rules .inRow) nodes) (cell : name ∈ ["td", "th"]) :
    state.findsOpen Element.boundsTable (fun _ tag => tag.isHtml name) nodes = false := by
  obtain ⟨row, _, rfl, ownRow, around⟩ := context.inRow
  obtain ⟨body, _, rfl, ownBody, around⟩ := around.inTableBody
  obtain ⟨table, _, _, rfl, ownTable, -, -⟩ := around.inTable
  have other : ∀ {tag : Element} {names : List String}, tag.isOneOf names = true →
      "td" ∉ names → "th" ∉ names → tag.isHtml name = false := by
    intro tag names named data header
    simp only [Element.isOneOf, Bool.and_eq_true, List.contains_iff_mem] at named
    have different : tag.name ≠ name := by
      rintro rfl
      simp only [List.mem_cons, List.not_mem_nil, or_false] at cell
      rcases cell with same | same
      · exact data (same ▸ named.2)
      · exact header (same ▸ named.2)
    simp [Element.isHtml, different]
  have single : ∀ {tag : Element} {name : String}, tag.isHtml name = true →
      tag.isOneOf [name] = true := by
    intro tag name named
    simpa [Element.isHtml, Element.isOneOf] using named
  have bounds : (state.element table).boundsTable = true :=
    Element.isOneOf_mono (single ownTable) (by decide)
  rw [findsOpen, findsOpen, findsOpen, other (single ownRow) (by decide) (by decide),
    other ownBody (by decide) (by decide), other (single ownTable) (by decide) (by decide), bounds]
  simp

theorem readInCell (laid : state.Laid base (.rules .inCell)) (same : state.mode = .inCell)
    (fits : state.fitsFlow .inCell token = true) (attempts : Nat) :
    (state.inCell token).Lands base state token (attempts + 5) := by
  obtain ⟨above, cell, rest, opened, plain, named, around⟩ := laid.context.inCell
  have inner : ∀ other ∈ above, (state.element other).boundsTable = false := fun other member =>
    Element.isOneOf_eq_false (plain other member) (by decide)
  have through : ∀ {wanted : Element → Bool}, (∀ tag, tag.isDecisive = false → wanted tag = false) →
      (∀ tag, tag.isOneOf impliedEndNames = true → wanted tag = false) →
      wanted (state.element cell) = true →
      state.Reaches base (.rules .inRow)
        (state.closeOptional.popThrough wanted).clearFormatting [] := by
    intro wanted missed unimplied hit
    have closed := laid.closeThrough opened (fun other member => missed _ (plain other member)) hit
      around
    rw [State.closeOptional, popThrough_closeImplied unimplied]
    exact closed.after closed.laid.clearFormatting
  have closed : state.Reaches base (.rules .inRow) state.closeCell [] :=
    through (fun tag indecisive => Element.isOneOf_eq_false indecisive (by decide))
      (fun tag implied => Element.isOneOf_disjoint implied (by decide)) named
  have leave : ∀ {token : Token}, state.fitsTable token = true →
      (Step.again (state.closeCell.withMode .inRow)).Lands base state token (attempts + 5) := by
    intro token fits
    exact .again closed.shows ((entered closed).stepInRow rfl (by cases token <;> exact fits) _)
  have content := fun starts ends => laid.inBody rfl same (starts_of_fitsFlow fits starts)
    (ends_of_fitsFlow fits ends) (attempts + 5)
  unfold State.inCell
  cases token with
  | null | blank | text | comment | doctype | finish =>
      exact content (by rintro _ ⟨⟩) (by rintro _ ⟨⟩)
  | startTag tag =>
      refine .ite (fun part => .ite (fun _ => leave ?_) fun closed => ?_) fun other => ?_
      · simp [fitsTable, List.contains_iff_mem.mp part]
      · refine absurd ?_ closed
        rw [State.inScope, opened]
        exact findsOpen_of_append inner named
      · refine content ?_ (by rintro _ ⟨⟩)
        rintro _ ⟨⟩
        exact .inr fun part => other (List.contains_iff_mem.mpr part)
  | endTag tag =>
      refine .ite (fun ended => .ite (fun found => ?_) fun _ => laid.reaches.lands same)
        fun notCell => .ite (fun _ => laid.reaches.lands same) fun _ =>
        .ite (fun part => .ite (fun _ => leave ?_) fun _ => laid.reaches.lands same) fun _ =>
        content (by rintro _ ⟨⟩) ?_
      · have cells : tag.name ∈ ["td", "th"] := by simpa using ended
        have decisive : tag.name ∈ decisiveNames := by
          have names : ∀ name ∈ ["td", "th"], name ∈ decisiveNames := by decide
          exact names _ cells
        have unimplied : tag.name ∉ impliedEndNames := by
          have names : ∀ name ∈ ["td", "th"], name ∉ impliedEndNames := by decide
          exact names _ cells
        rw [State.nameInScope, State.inScope, opened] at found
        have hit := findsOpen_of_missed
          (fun other member => Element.isHtml_eq_false (plain other member) decisive) found
        rw [State.findsOpen, not_findsOpen_cell around cells, Bool.and_false, Bool.or_false] at hit
        refine Reaches.landsIn (through (fun _ indecisive =>
          Element.isHtml_eq_false indecisive decisive) (fun tag implied => ?_) hit)
        simp only [Element.isOneOf, Bool.and_eq_true, List.contains_iff_mem] at implied
        have different := ne_of_mem_of_not_mem implied.2 unimplied
        simp [Element.isHtml, different]
      · have names : ∀ name ∈ ["table", "tbody", "tfoot", "thead", "tr"],
            name ∈ "table" :: tablePartNames := by decide
        exact List.contains_iff_mem.mpr (names _ (List.contains_iff_mem.mp part))
      · rintro _ ⟨⟩ holder holds
        simp only [Bool.or_eq_true, decide_eq_true_eq, not_or] at notCell
        simp only [Mode.isHolder, Element.isCell, Element.isOneOf, Bool.and_eq_true,
          List.contains_iff_mem, List.mem_cons, List.not_mem_nil, or_false] at holds
        have different : holder.name ≠ tag.name := by
          intro same
          exact holds.2.elim (fun data => notCell.1 (same ▸ data)) fun header =>
            notCell.2 (same ▸ header)
        simp [Element.isHtml, different]

/-! ### Selections -/

theorem popName (laid : state.Laid base (.rules mode)) {name : String}
    (plain : name ∉ decisiveNames) : state.Reaches base (.rules mode) (state.popName name) [] := by
  unfold State.popName
  split
  · next named => exact laid.popCurrent named plain
  · exact laid.reaches

theorem endOptionGroup (laid : state.Laid base (.rules mode)) :
    state.Reaches base (.rules mode) state.endOptionGroup [] := by
  have option : ∀ group : Bool, state.Reaches base (.rules mode)
      (if group then state.popName "option" else state) [] := by
    intro group
    cases group with
    | true => exact laid.popName (by decide)
    | false => exact laid.reaches
  unfold State.endOptionGroup
  exact (option _).after ((option _).laid.popName (by decide))

theorem closeSelect (laid : state.Laid base (.rules mode)) (selects : mode.isSelection = true) :
    state.Lands base state.closeSelect [] := by
  obtain ⟨above, select, rest, outer, opened, plain, named, flow, around⟩ :=
    laid.context.inSelection selects
  exact laid.leave opened
    (fun other member => Element.isHtml_eq_false (plain other member) (by decide)) named flow around

theorem readInSelect (laid : state.Laid base (.rules mode)) (selects : mode.isSelection = true)
    (same : state.mode = mode) (fits : fitsSelection token = true) (attempts : Nat) :
    (state.inSelect token).Lands base state token attempts := by
  have holds : (mode.isFlow || mode.isSelection) = true := by rw [selects, Bool.or_true]
  have option : state.Reaches base (.rules mode) (state.popName "option") [] :=
    laid.popName (by decide)
  have group : state.Reaches base (.rules mode) ((state.popName "option").popName "optgroup") [] :=
    option.after (option.laid.popName (by decide))
  cases token with
  | blank content => exact (laid.insertBlank content).lands same
  | text content => exact (laid.insertText content).lands same
  | comment content => exact (laid.insertComment content).lands same
  | finish =>
      rw [State.inSelect, State.finishInBody, laid.templates]
      exact laid.reaches.lands same
  | null => exact laid.reaches.lands same
  | doctype => cases fits
  | startTag tag =>
      have known : tag.name ∈ ["option", "optgroup", "hr", "script"] :=
        List.contains_iff_mem.mp fits
      have among : ∀ {name : String}, tag.name = name →
          name ∉ ["option", "optgroup", "hr", "script"] → False := by
        rintro name rfl other
        exact other known
      have openInner : ∀ {popped : State}, popped.Laid base (.rules mode) → tag.name ≠ "hr" →
          popped.Reaches base (.rules mode) (popped.openTag tag) [tag.item] := by
        intro popped reached notRule
        have names : ∀ name ∈ ["option", "optgroup", "hr", "script"], name ≠ "hr" →
            name ∉ decisiveNames := by decide
        exact reached.openContent holds (names _ known notRule)
      unfold State.inSelect
      refine .ite (fun root => (among root (by decide)).elim) fun _ => ?_
      refine .ite (fun named => ?_) fun notOption => ?_
      · exact (option.after (openInner option.laid (named ▸ by decide))).lands same
      refine .ite (fun named => ?_) fun notGroup => ?_
      · exact (group.after (openInner group.laid (named ▸ by decide))).lands same
      refine .ite (fun rule => ?_) fun notRule => ?_
      · exact (group.after (group.laid.closedTag (rule ▸ by decide))).lands same
      refine .ite (fun select => (among select (by decide)).elim) fun _ => ?_
      have script : tag.name = "script" := by
        simpa [notOption, notGroup, notRule] using known
      rw [script]
      exact laid.sharedStart same (script ▸ by decide) (script ▸ by decide)
  | endTag tag =>
      refine .ite (fun _ => laid.endOptionGroup.lands same) fun _ =>
        .ite (fun _ => option.lands same) fun _ => .ite (fun _ => ?_) fun _ =>
        .ite (fun template => ?_) fun _ => laid.reaches.lands same
      · exact Lands.ite (fun _ => laid.closeSelect selects) fun _ => laid.reaches.lands same
      · simp [fitsSelection, template] at fits

theorem readInSelectInTable (laid : state.Laid base (.rules mode))
    (selects : mode.isSelection = true) (same : state.mode = mode)
    (fits : fitsSelection token = true) (attempts : Nat) :
    (state.inSelectInTable token).Lands base state token attempts := by
  have content := laid.readInSelect selects same fits attempts
  cases token with
  | null | blank | text | comment | doctype | finish => exact content
  | startTag tag =>
      refine .ite (fun part => ?_) fun _ => content
      have names : ∀ name ∈ ["option", "optgroup", "hr", "script"],
          name ∉ ["caption", "table", "tbody", "tfoot", "thead", "tr", "td", "th"] := by decide
      exact absurd (List.contains_iff_mem.mp part) (names _ (List.contains_iff_mem.mp fits))
  | endTag tag =>
      refine .ite (fun part => ?_) fun _ => content
      have names : ∀ name ∈ ["caption", "table", "tbody", "tfoot", "thead", "tr", "td", "th"],
          name ∈ "template" :: "table" :: tablePartNames := by decide
      have listed := List.contains_iff_mem.mpr (names _ (List.contains_iff_mem.mp part))
      rw [fitsSelection, listed] at fits
      cases fits

/-! ### Text -/

theorem insertPending (laid : state.Laid base (.rules mode)) :
    state.Reaches base (.rules mode) state.insertPending [] ∧
      state.insertPending.form? = state.form? := by
  have blank : state.pending.reverse.all (·.1) = true := by
    rw [List.all_eq_true]
    exact fun part member => laid.pending part (List.mem_reverse.mp member)
  have forgotten : State.Reaches base (.rules mode) state { state with pending := [] } [] :=
    ⟨{ laid with pending := by rintro _ ⟨⟩ }, ⟨_, .refl _, .refl _⟩, rfl⟩
  have form : ({ state with pending := [] } : State).form? = state.form? := rfl
  unfold State.insertPending
  dsimp only
  rw [if_pos blank]
  generalize state.pending.reverse = parts
  generalize { state with pending := [] } = current at forgotten form
  induction parts generalizing current with
  | nil => exact ⟨forgotten, form⟩
  | cons part parts ih =>
      exact ih _ (forgotten.after (forgotten.laid.insertBlank part.2))
        ((congrArg State.form? (insertText_eq current part.2)).trans form)

end Laid

theorem mode_of_situation (there : state.situation = .rules mode)
    (other : state.mode ≠ .inTableText) : state.mode = mode := by
  unfold situation at there
  split at there
  · cases there
  · next pending => exact absurd pending other
  · cases there
    rfl

theorem fitsTable_of_form {other : State} (fits : state.fitsTable token = true)
    (form : other.form? = state.form?) : other.fitsTable token = true := by
  cases token with
  | startTag tag =>
      simp only [fitsTable, form]
      exact fits
  | _ => exact fits

namespace Sits

theorem readInTableText (sits : state.Sits base) (same : state.mode = .inTableText)
    (fits : state.fitsTable token = true) (attempts : Nat) :
    (state.inTableText token).Lands base state token (attempts + 5) := by
  have table := sits.tableText same
  have situation : state.situation = .rules state.returnMode := by rw [State.situation, same]
  have laid : state.Laid base (.rules state.returnMode) := situation ▸ sits.laid
  obtain ⟨settled, form⟩ := laid.insertPending
  have leave : (Step.again (state.insertPending.withMode state.returnMode)).Lands base state token
      (attempts + 5) := by
    have fits : (state.insertPending.withMode state.returnMode).fitsTable token = true :=
      fitsTable_of_form fits form
    refine .again settled.shows ?_
    have entered := Laid.entered settled
    generalize state.returnMode = mode at table entered fits
    simp only [List.mem_cons, List.not_mem_nil, or_false] at table
    rcases table with rfl | rfl | rfl
    · exact entered.stepInTable rfl fits (attempts + 2)
    · exact entered.stepInTableBody rfl fits (attempts + 1)
    · exact entered.stepInRow rfl fits attempts
  cases token with
  | null => exact ⟨sits, _, .refl _, .refl _⟩
  | blank content =>
      have pending : ∀ part ∈ (true, content) :: state.pending, part.1 = true := by
        intro part member
        rcases List.mem_cons.mp member with rfl | before
        · rfl
        · exact laid.pending part before
      exact ⟨⟨{ sits.laid with pending }, sits.tableText⟩, _, .refl _, .refl _⟩
  | text | doctype => cases fits
  | comment | startTag | endTag | finish => exact leave

theorem stepFinish {node : Nat} (laid : state.Laid (.body node) (.rules mode))
    (same : state.mode = mode) (attempts : Nat) :
    (state.step .finish).Lands (.body node) state .finish attempts := by
  have done : state.finishInBody.Lands (.body node) state .finish attempts := by
    rw [State.finishInBody, laid.templates]
    exact laid.reaches.lands same
  have unforeign : state.isForeign .finish = false := by
    unfold State.isForeign
    dsimp only
    split <;> rfl
  have settled := laid.context.settled
  rw [State.step, unforeign, if_neg Bool.noConfusion, State.stepIn, same]
  cases mode with
  | inBody | inTable | inCaption | inColumns | inTableBody | inRow | inCell | inSelect
  | inSelectInTable => exact done
  | _ => simp [Mode.isFlow, Mode.isSelection, Mode.isTable] at settled

theorem readInText (sits : state.Sits base) (same : state.mode = .inText)
    (fits : fitsText token = true) (goes : token ≠ .finish) (attempts : Nat) :
    (state.inText token).Lands base state token attempts := by
  have situation : state.situation = .text state.returnMode := by rw [State.situation, same]
  have laid : state.Laid base (.text state.returnMode) := situation ▸ sits.laid
  have inserted : ∀ {next : State} {items : List Item},
      state.Reaches base (.text state.returnMode) next items →
      next.returnMode = state.returnMode → state.Lands base next items := by
    intro next items reaches kept
    have mode := reaches.mode.trans same
    refine ⟨⟨?_, fun other => ?_⟩, reaches.shows⟩
    · have there : next.situation = .text state.returnMode := by rw [State.situation, mode, kept]
      exact there ▸ reaches.laid
    · rw [mode] at other
      cases other
  have kept : ∀ content, (state.insertText content).returnMode = state.returnMode := by
    intro content
    rw [insertText_eq]
  cases token with
  | blank content => exact inserted (laid.insertBlank content) (kept content)
  | text content => exact inserted (laid.insertText content) (kept content)
  | comment | null => exact inserted laid.reaches rfl
  | startTag | doctype => cases fits
  | endTag tag => exact laid.closeText.landsIn
  | finish => exact absurd rfl goes

theorem finishInText {node : Nat} (sits : state.Sits (.body node)) (same : state.mode = .inText)
    (attempts : Nat) : (state.inText .finish).Lands (.body node) state .finish (attempts + 1) := by
  have situation : state.situation = .text state.returnMode := by rw [State.situation, same]
  have laid : state.Laid (.body node) (.text state.returnMode) := situation ▸ sits.laid
  have closed := laid.closeText
  exact .again closed.shows (stepFinish (Laid.entered closed) rfl attempts)

/-- By the rules of every mode in the body, a token that stands where it may adds what it shows. -/
theorem readHere {node : Nat} (sits : state.Sits (.body node)) (fits : state.fitsHere token = true)
    (attempts : Nat) : (state.stepIn token).Lands (.body node) state token (attempts + 5) := by
  by_cases text : state.mode = .inText
  · have situation : state.situation = .text state.returnMode := by rw [State.situation, text]
    rw [fitsHere, situation] at fits
    rw [State.stepIn, text]
    by_cases ends : token = .finish
    · rw [ends]
      exact sits.finishInText text (attempts + 4)
    · exact sits.readInText text fits ends _
  by_cases pending : state.mode = .inTableText
  · have situation : state.situation = .rules state.returnMode := by rw [State.situation, pending]
    have table : state.returnMode.isTable = true := by
      have modes : ∀ mode ∈ [Mode.inTable, .inTableBody, .inRow], mode.isTable = true := by decide
      exact modes _ (sits.tableText pending)
    rw [fitsHere, situation] at fits
    dsimp only at fits
    rw [if_pos table] at fits
    rw [State.stepIn, pending]
    exact sits.readInTableText pending fits attempts
  obtain ⟨mode, same⟩ : ∃ mode, state.mode = mode := ⟨_, rfl⟩
  rw [same] at text pending
  have situation := situation_of_mode same text pending
  have laid : state.Laid (.body node) (.rules mode) := situation ▸ sits.laid
  have settled := laid.context.settled
  rw [fitsHere, situation] at fits
  have tables : ∀ {mode : Mode}, mode.isTable = true → state.Laid (.body node) (.rules mode) →
      state.stepIn token = state.step token := fun table laid => (laid.step_eq_stepIn table).symm
  cases mode with
  | inBody =>
      rw [State.stepIn, same]
      exact laid.readInBody same fits _
  | inCaption =>
      rw [State.stepIn, same]
      exact laid.readInCaption same fits (attempts + 2)
  | inCell =>
      rw [State.stepIn, same]
      exact laid.readInCell same fits attempts
  | inSelect =>
      rw [State.stepIn, same]
      exact laid.readInSelect rfl same fits _
  | inSelectInTable =>
      rw [State.stepIn, same]
      exact laid.readInSelectInTable rfl same fits _
  | inTable =>
      rw [tables rfl laid]
      exact laid.stepInTable same fits (attempts + 3)
  | inColumns =>
      rw [tables rfl laid]
      exact laid.stepInColumns same fits (attempts + 2)
  | inTableBody =>
      rw [tables rfl laid]
      exact laid.stepInTableBody same fits (attempts + 2)
  | inRow =>
      rw [tables rfl laid]
      exact laid.stepInRow same fits (attempts + 1)
  | _ => simp [Mode.isFlow, Mode.isSelection, Mode.isTable] at settled

end Sits

/-! ### SVG and MathML -/

theorem isDecisive_of_foreign {tag : Element} (foreign : tag.space ≠ .html) :
    tag.isDecisive = false := by
  simp [Element.isDecisive, Element.isOneOf, foreign]

/-- An end tag closes elements of SVG and MathML only. -/
theorem exists_of_foreignEnd {name : String} {first : Bool} {nodes opened : List Nat}
    (found : state.foreignEnd name first nodes = some opened)
    (foreign : first = true → ∀ node ∈ nodes.head?, (state.element node).space ≠ .html) :
    opened = state.opened ∨ ∃ above, nodes = above ++ opened ∧
      ∀ other ∈ above, (state.element other).space ≠ .html := by
  induction nodes generalizing first with
  | nil => exact .inl (Option.some.inj found).symm
  | cons node rest ih =>
      cases rest with
      | nil => exact .inl (Option.some.inj found).symm
      | cons next rest =>
          rw [State.foreignEnd] at found
          · split_ifs at found with html same
            all_goals
              have own : (state.element node).space ≠ .html := by
                cases first with
                | true => exact foreign rfl node rfl
                | false => simpa using html
            · cases found
              exact .inr ⟨[node], rfl, by simpa using own⟩
            · refine (ih found (by rintro ⟨⟩)).imp_right ?_
              rintro ⟨above, opened, others⟩
              exact ⟨node :: above, by rw [opened, List.cons_append],
                List.forall_mem_cons.mpr ⟨own, others⟩⟩
          · rintro ⟨⟩

namespace Sits

variable {node : Nat}

/-- SVG and MathML stand in ordinary content. -/
theorem exists_mode_of_foreign (sits : state.Sits base) (foreign : state.current.space ≠ .html) :
    ∃ mode, state.mode = mode ∧ state.Laid base (.rules mode) ∧
      (mode.isFlow || mode.isSelection) = true := by
  obtain ⟨inner, rest, opened⟩ := sits.laid.context.exists_cons
  have current : state.current = state.element inner := by rw [State.current, opened]; rfl
  have html : ∀ {name}, (state.element inner).isHtml name = true → False := by
    intro name named
    simp only [Element.isHtml, Bool.and_eq_true, decide_eq_true_eq] at named
    exact foreign (current ▸ named.1)
  have oneOf : ∀ {names}, (state.element inner).isOneOf names = true → False := by
    intro names named
    simp only [Element.isOneOf, Bool.and_eq_true, decide_eq_true_eq] at named
    exact foreign (current ▸ named.1)
  obtain ⟨situation, there⟩ : ∃ situation, state.situation = situation := ⟨_, rfl⟩
  have laid := sits.laid
  have context := laid.context
  rw [there] at laid context
  rw [opened] at context
  cases context with
  | root named | head named | body named => exact (html named).elim
  | text _ space => exact (foreign (current ▸ space)).elim
  | inside opens =>
      cases opens with
      | select _ _ named | table _ named | caption named | columns named | row named =>
          exact (html named).elim
      | «section» named | cell named => exact (oneOf named).elim
      | content holds =>
          refine ⟨_, mode_of_situation there fun pending => ?_, laid, holds⟩
          have modes : ∀ mode ∈ [Mode.inTable, .inTableBody, .inRow],
              ¬ (mode.isFlow || mode.isSelection) = true := by decide
          rw [State.situation, pending] at there
          cases there
          exact modes _ (sits.tableText pending) holds

theorem leaveForeign (laid : state.Laid base (.rules mode)) :
    state.Reaches base (.rules mode) state.leaveForeign [] := by
  refine laid.dropWhile fun node foreign => isDecisive_of_foreign ?_
  simp only [Bool.not_eq_true', Bool.or_eq_false_iff, decide_eq_false_iff_not] at foreign
  exact foreign.1.1

/-- By the rules of SVG and MathML too, a token that stands where it may adds what it shows. -/
theorem readForeign (sits : state.Sits (.body node)) (foreign : state.isForeign token = true)
    (fits : state.fits token = true) (attempts : Nat) :
    (state.inForeign token).Lands (.body node) state token (attempts + 5) := by
  have space : state.current.space ≠ .html := fun html => by
    rw [isForeign_of_html html] at foreign
    cases foreign
  obtain ⟨mode, same, laid, holds⟩ := sits.exists_mode_of_foreign space
  have left := leaveForeign laid
  have outside : ∀ {token : Token}, state.leaveForeign.fitsHere token = true →
      (state.leaveForeign.stepIn token).Lands (.body node) state token (attempts + 5) := by
    intro token fits
    exact .after left (readHere (left.laid.sits (left.mode.trans same)) fits attempts)
  cases token with
  | null => exact (laid.insertBlank _).lands same
  | blank content => exact (laid.insertBlank content).lands same
  | text content =>
      have refused := laid.reaches.refuseFrames
      exact (refused.after (refused.laid.insertText content)).lands same
  | comment content => exact (laid.insertComment content).lands same
  | finish => exact laid.reaches.lands same
  | doctype => exact laid.reaches.lands same
  | startTag tag =>
      rw [State.fits, if_pos foreign, Bool.or_eq_true, Bool.not_eq_true'] at fits
      refine .ite (fun ends => outside (fits.resolve_left fun goes => ?_)) fun _ => ?_
      · rw [ends] at goes
        cases goes
      · exact (laid.insertForeign holds _ space true).lands same
  | endTag tag =>
      refine .ite (fun paragraph => outside ?_) fun _ => ?_
      · have whole : reopenedNames.contains tag.name = false := by
          rw [Bool.or_eq_true, decide_eq_true_eq, decide_eq_true_eq] at paragraph
          rcases paragraph with named | named <;> rw [named] <;> decide
        obtain ⟨text, pending⟩ := laid.context.mode_ne
        have situation := situation_of_mode same text pending
        have there : state.leaveForeign.situation = .rules mode := situation
        change state.fitsHere (.endTag tag) = true at fits
        rw [fitsHere, situation] at fits
        rw [fitsHere, there]
        dsimp only [fitsFlow] at fits ⊢
        rw [whole] at fits ⊢
        exact fits
      · split
        · next opened found =>
            have foreigns := exists_of_foreignEnd found fun _ inner top => by
              have current : state.current = state.element inner := by
                unfold State.current
                cases rest : state.opened with
                | nil => rw [rest] at top; cases top
                | cons first others => rw [rest] at top; cases top; rfl
              rwa [← current]
            rcases foreigns with rfl | ⟨above, whole, outer⟩
            · exact laid.reaches.lands same
            · have context := laid.context
              rw [whole] at context
              have sub : opened.Sublist state.opened := whole ▸ List.sublist_append_right _ _
              exact (laid.closing sub (context.drop fun other member =>
                isDecisive_of_foreign (outer other member))).lands same
        · exact sits.readHere fits attempts

/-- A token that stands where it may adds what it shows. -/
theorem read (sits : state.Sits (.body node)) (fits : state.fits token = true) (attempts : Nat) :
    (state.step token).Lands (.body node) state token (attempts + 5) := by
  by_cases foreign : state.isForeign token = true
  · rw [State.step, if_pos foreign]
    exact sits.readForeign foreign fits attempts
  · rw [State.step, if_neg foreign]
    refine sits.readHere ?_ attempts
    cases token with
    | startTag tag =>
        rw [State.fits, if_neg foreign] at fits
        exact fits
    | _ => exact fits

end Sits

end State

end Bindery.Html
