import Bindery.Proofs.Html.BlankRuns
import Bindery.Proofs.Html.DocumentOrder

/-!
# The open elements

Where nothing is moved out of a table, the open elements show by what rules the next token is
read, and what is added comes last in the document.
-/

set_option autoImplicit false

namespace Bindery.Html

/-! ## What the open elements say -/

/-- The names of the elements whose content has rules of its own, and of those without content. -/
def decisiveNames : List String :=
  ["select", "td", "th", "tr", "tbody", "thead", "tfoot", "caption", "colgroup", "table",
    "template", "head", "body", "frameset", "html"] ++ voidNames

def Element.isDecisive (tag : Element) : Bool := tag.isOneOf decisiveNames

theorem Element.isOneOf_disjoint {tag : Element} {names others : List String}
    (named : tag.isOneOf names = true) (apart : ∀ name ∈ names, name ∉ others) :
    tag.isOneOf others = false := by
  simp only [isOneOf, Bool.and_eq_true, List.contains_iff_mem] at named
  simp [isOneOf, apart _ named.2]

theorem Element.isOneOf_mono {tag : Element} {names others : List String}
    (named : tag.isOneOf names = true) (among : names ⊆ others) : tag.isOneOf others = true := by
  simp only [isOneOf, Bool.and_eq_true, List.contains_iff_mem] at named
  simp [isOneOf, named.1, among named.2]

theorem Element.isDecisive_of_isHtml {tag : Element} {name : String}
    (named : tag.isHtml name = true) (decisive : name ∈ decisiveNames) :
    tag.isDecisive = true := by
  simp only [isHtml, Bool.and_eq_true, decide_eq_true_eq] at named
  simp [isDecisive, isOneOf, named, decisive]

theorem Element.isHtml_eq_false {tag : Element} {name : String} (plain : tag.isDecisive = false)
    (decisive : name ∈ decisiveNames) : tag.isHtml name = false := by
  cases named : tag.isHtml name with
  | false => rfl
  | true => rw [isDecisive_of_isHtml named decisive] at plain; cases plain

theorem Element.isOneOf_eq_false {tag : Element} {names : List String}
    (plain : tag.isDecisive = false) (decisive : names ⊆ decisiveNames) :
    tag.isOneOf names = false := by
  cases named : tag.isOneOf names with
  | false => rfl
  | true =>
      rw [isDecisive, isOneOf_mono named decisive] at plain
      cases plain

/-- The modes in which ordinary content is read. -/
def Mode.isFlow : Mode → Bool
  | .inBody | .inCaption | .inCell => true
  | _ => false

def Mode.isSelection : Mode → Bool
  | .inSelect | .inSelectInTable => true
  | _ => false

/-- The elements that hold what is read in a mode for ordinary content. -/
def Mode.isHolder (mode : Mode) (tag : Element) : Bool :=
  match mode with
  | .inBody => tag.isHtml "body" || tag.isHtml "html"
  | .inCaption => tag.isHtml "caption"
  | .inCell => tag.isCell
  | _ => false

theorem Mode.isDecisive_of_isHolder {mode : Mode} {tag : Element}
    (holder : mode.isHolder tag = true) : tag.isDecisive = true := by
  cases mode with
  | inBody =>
      rw [isHolder, Bool.or_eq_true] at holder
      rcases holder with body | root
      · exact Element.isDecisive_of_isHtml body (by decide)
      · exact Element.isDecisive_of_isHtml root (by decide)
  | inCaption => exact Element.isDecisive_of_isHtml holder (by decide)
  | inCell => exact Element.isOneOf_mono holder (by decide)
  | _ => cases holder

theorem Mode.not_isSelection {mode : Mode} (flow : mode.isFlow = true) :
    ¬ mode.isSelection = true := by
  revert flow
  cases mode <;> decide

/-- The rules that a token is read by: those of a mode, or those of a text inside an element that
was opened in the mode. -/
inductive Situation where
  | rules (mode : Mode)
  | text (mode : Mode)

/-- Inside an element that stands in content of the one mode, tokens are read by the other. -/
inductive Opens (tag : Element) : Mode → Mode → Prop where
  | content {mode} : (mode.isFlow || mode.isSelection) = true → tag.isDecisive = false →
      Opens tag mode mode
  | select {mode selection} : mode.isFlow = true → selection.isSelection = true →
      tag.isHtml "select" = true → Opens tag mode selection
  | table {mode} : mode.isFlow = true → tag.isHtml "table" = true → Opens tag mode .inTable
  | caption : tag.isHtml "caption" = true → Opens tag .inTable .inCaption
  | columns : tag.isHtml "colgroup" = true → Opens tag .inTable .inColumns
  | section : tag.isOneOf ["tbody", "tfoot", "thead"] = true → Opens tag .inTable .inTableBody
  | row : tag.isHtml "tr" = true → Opens tag .inTableBody .inRow
  | cell : tag.isCell = true → Opens tag .inRow .inCell

/-- An element without rules of its own stands in ordinary content or in a selection. -/
theorem Opens.of_indecisive {tag : Element} {outer inner : Mode} (opens : Opens tag outer inner)
    (plain : tag.isDecisive = false) :
    outer = inner ∧ (inner.isFlow || inner.isSelection) = true := by
  have decided : ∀ {claim : Prop}, tag.isDecisive = true → claim := by
    intro claim decisive
    rw [decisive] at plain
    cases plain
  cases opens with
  | content holds => exact ⟨rfl, holds⟩
  | select _ _ own | table _ own | caption own | columns own | row own =>
      exact decided (Element.isDecisive_of_isHtml own (by decide))
  | «section» own | cell own => exact decided (Element.isOneOf_mono own (by decide))

/-- The node of the outermost element of a document. -/
def rootNode : Nat := 1

/-- What lies below all other open elements: the root, with the head or the body in it. -/
inductive Base where
  | root
  | head (node : Nat)
  | body (node : Nat)

/-- What is open, from the innermost element out, calls for these rules. -/
inductive Context (element : Nat → Element) : Base → Situation → List Nat → Prop where
  | root : (element rootNode).isHtml "html" = true →
      Context element .root (.rules .afterHead) [rootNode]
  | head {node} : (element node).isHtml "head" = true → (element rootNode).isHtml "html" = true →
      Context element (.head node) (.rules .inHead) [node, rootNode]
  | body {node} : (element node).isHtml "body" = true → (element rootNode).isHtml "html" = true →
      Context element (.body node) (.rules .inBody) [node, rootNode]
  | inside {base outer inner node rest} : Opens (element node) outer inner →
      Context element base (.rules outer) rest →
      Context element base (.rules inner) (node :: rest)
  | text {base mode node rest} : (element node).isDecisive = false → (element node).space = .html →
      Context element base (.rules mode) rest → Context element base (.text mode) (node :: rest)

namespace Context

variable {element : Nat → Element} {base : Base} {situation : Situation} {mode : Mode}
  {nodes : List Nat}

theorem congr (context : Context element base situation nodes) {other : Nat → Element}
    (same : ∀ node ∈ nodes, other node = element node) : Context other base situation nodes := by
  induction context with
  | root named =>
      refine .root ?_
      rwa [same _ (by simp)]
  | head named root => refine .head ?_ ?_ <;> rwa [same _ (by simp)]
  | body named root => refine .body ?_ ?_ <;> rwa [same _ (by simp)]
  | inside opens context ih =>
      obtain ⟨own, others⟩ := List.forall_mem_cons.mp same
      exact .inside (own ▸ opens) (ih others)
  | text plain space context ih =>
      obtain ⟨own, others⟩ := List.forall_mem_cons.mp same
      exact .text (own ▸ plain) (own ▸ space) (ih others)

theorem exists_cons (context : Context element base situation nodes) :
    ∃ node rest, nodes = node :: rest := by
  cases context <;> exact ⟨_, _, rfl⟩

/-- Neither a template nor a void element is open. -/
theorem isOneOf_hidden (context : Context element base situation nodes) :
    ∀ node ∈ nodes, (element node).isOneOf ("template" :: voidNames) = false := by
  have other : ∀ {tag : Element} {name}, tag.isHtml name = true → name ∉ "template" :: voidNames →
      tag.isOneOf ("template" :: voidNames) = false := by
    intro tag name named different
    simp only [Element.isHtml, Bool.and_eq_true, decide_eq_true_eq] at named
    have apart : ("template" :: voidNames).contains name = false :=
      Bool.eq_false_iff.mpr fun member => different (List.contains_iff_mem.mp member)
    rw [Element.isOneOf, named.2, apart, Bool.and_false]
  have plain : ∀ {tag : Element}, tag.isDecisive = false →
      tag.isOneOf ("template" :: voidNames) = false :=
    fun plain => Element.isOneOf_eq_false plain (by decide)
  induction context with
  | root named => simp [other named (by decide)]
  | head named root | body named root =>
      simp [other named (by decide), other root (by decide)]
  | inside opens context ih =>
      refine List.forall_mem_cons.mpr ⟨?_, ih⟩
      cases opens with
      | content _ indecisive => exact plain indecisive
      | select _ _ named | table _ named | caption named | columns named | row named =>
          exact other named (by decide)
      | «section» named | cell named => exact Element.isOneOf_disjoint named (by decide)
  | text indecisive _ context ih => exact List.forall_mem_cons.mpr ⟨plain indecisive, ih⟩

theorem isHtml_template (context : Context element base situation nodes) :
    ∀ node ∈ nodes, (element node).isHtml "template" = false := by
  intro node member
  have hidden := context.isOneOf_hidden node member
  simp only [Element.isOneOf, List.contains_cons, Bool.and_or_distrib_left, Bool.or_eq_false_iff]
    at hidden
  simpa [Element.isHtml] using hidden.1

theorem isVoid (context : Context element base situation nodes) :
    ∀ node ∈ nodes, (element node).isVoid = false := by
  intro node member
  have hidden := context.isOneOf_hidden node member
  simp only [Element.isOneOf, List.contains_cons, Bool.and_or_distrib_left, Bool.or_eq_false_iff]
    at hidden
  exact hidden.2

/-- Elements without rules of their own may be closed. -/
theorem drop {above : List Nat} (context : Context element base (.rules mode) (above ++ nodes))
    (plain : ∀ node ∈ above, (element node).isDecisive = false) :
    Context element base (.rules mode) nodes := by
  induction above with
  | nil => exact context
  | cons node above ih =>
      obtain ⟨own, others⟩ := List.forall_mem_cons.mp plain
      rw [List.cons_append] at context
      generalize above ++ nodes = rest at context ih
      cases context with
      | root named | head named | body named =>
          rw [Element.isDecisive_of_isHtml named (by decide)] at own
          cases own
      | inside opens context =>
          obtain ⟨rfl, -⟩ := opens.of_indecisive own
          exact ih context others

/-- An element without rules of its own may be taken out. -/
theorem erase (context : Context element base (.rules mode) nodes) {node : Nat}
    (plain : (element node).isDecisive = false) :
    Context element base (.rules mode) (nodes.erase node) := by
  have apart : ∀ {other}, (element other).isDecisive = true → other ≠ node := by
    rintro other decisive rfl
    rw [decisive] at plain
    cases plain
  have kept : ∀ {inner name}, (element inner).isHtml name = true →
      (element rootNode).isHtml "html" = true → name ∈ decisiveNames →
      [inner, rootNode].erase node = [inner, rootNode] := by
    intro inner name named top decisive
    have different := apart (Element.isDecisive_of_isHtml named decisive)
    have other := apart (Element.isDecisive_of_isHtml top (by decide))
    exact List.erase_of_not_mem (by simp [different.symm, other.symm])
  induction nodes generalizing mode with
  | nil => exact context
  | cons first rest ih =>
      cases context with
      | root named =>
          have different := apart (Element.isDecisive_of_isHtml named (by decide))
          rw [List.erase_of_not_mem (by simp [different.symm])]
          exact .root named
      | head named top =>
          rw [kept named top (by decide)]
          exact .head named top
      | body named top =>
          rw [kept named top (by decide)]
          exact .body named top
      | inside opens context =>
          by_cases same : first = node
          · obtain ⟨rfl, -⟩ := opens.of_indecisive (same ▸ plain)
            rwa [same, List.erase_cons_head]
          · rw [List.erase_cons_tail (by simpa using same)]
            exact .inside opens (ih context)

/-- In ordinary content the search for an element stays among those without rules of their own. -/
theorem exists_found (context : Context element base (.rules mode) nodes)
    (flow : mode.isFlow = true) {state : State} (same : state.element = element)
    {bounds : Element → Bool} {wanted : Nat → Element → Bool}
    (bounded : ∀ tag, tag.isHtml "html" = true ∨ tag.isHtml "caption" = true ∨ tag.isCell = true →
      bounds tag = true)
    (unwanted : ∀ node, mode.isHolder (element node) = true → wanted node (element node) = false)
    (found : state.findsOpen bounds wanted nodes = true) :
    ∃ above node rest, nodes = above ++ node :: rest ∧
      (∀ other ∈ above, wanted other (element other) = false) ∧
      wanted node (element node) = true ∧
      (∀ other ∈ above ++ [node], (element other).isDecisive = false) ∧
      Context element base (.rules mode) rest := by
  subst same
  induction nodes with
  | nil => cases found
  | cons first rest ih =>
      rw [State.findsOpen] at found
      cases context with
      | root | head => cases flow
      | body named top =>
          rw [unwanted _ (by simp [Mode.isHolder, named]), State.findsOpen,
            unwanted _ (by simp [Mode.isHolder, top]), bounded _ (.inl top)] at found
          simp at found
      | inside opens context =>
          cases opens with
          | content holds plain =>
              cases here : wanted first (state.element first) with
              | true => exact ⟨[], first, rest, rfl, by simp, here, by simp [plain], context⟩
              | false =>
                  rw [here, Bool.false_or, Bool.and_eq_true] at found
                  obtain ⟨above, node, others, rfl, missed, hit, indecisive, left⟩ :=
                    ih found.2 context
                  exact ⟨first :: above, node, others, rfl,
                    List.forall_mem_cons.mpr ⟨here, missed⟩, hit,
                    List.forall_mem_cons.mpr ⟨plain, indecisive⟩, left⟩
          | caption named =>
              rw [unwanted _ named, bounded _ (.inr (.inl named))] at found
              cases found
          | cell named =>
              rw [unwanted _ named, bounded _ (.inr (.inr named))] at found
              cases found
          | select _ selects => exact absurd selects (Mode.not_isSelection flow)
          | _ => cases flow

theorem mode_ne (context : Context element base (.rules mode) nodes) :
    mode ≠ .inText ∧ mode ≠ .inTableText := by
  have content : ∀ {mode : Mode}, (mode.isFlow || mode.isSelection) = true →
      mode ≠ .inText ∧ mode ≠ .inTableText := by
    intro mode
    cases mode <;> decide
  cases context with
  | root | head | body => decide
  | inside opens =>
      cases opens with
      | content holds => exact content holds
      | select _ selects => exact content (by rw [selects, Bool.or_true])
      | _ => decide

theorem modeFor (context : Context element base (.rules mode) nodes) (flow : mode.isFlow = true)
    {state : State} (same : state.element = element) : state.modeFor nodes = mode := by
  subst same
  induction nodes with
  | nil => cases context
  | cons first rest ih =>
      cases context with
      | root | head => cases flow
      | body named top =>
          simp only [Element.isHtml, Bool.and_eq_true, decide_eq_true_eq] at named
          simp [State.modeFor, named, Element.isCell, Element.isOneOf]
      | inside opens context =>
          obtain ⟨_, _, whole⟩ := context.exists_cons
          have more : rest.isEmpty = false := by simp [whole]
          cases opens with
          | content holds plain =>
              rw [State.modeFor]
              by_cases html : (state.element first).space = .html
              · have others : ∀ name ∈ decisiveNames, (state.element first).name ≠ name := by
                  intro name decisive same
                  rw [Element.isDecisive_of_isHtml (by simp [Element.isHtml, html, same]) decisive]
                    at plain
                  cases plain
                simp only [decisiveNames, List.forall_mem_append, List.forall_mem_cons] at others
                simp [html, others, Element.isCell, Element.isOneOf, ih context]
              · simp [html, ih context]
          | caption named =>
              simp only [Element.isHtml, Bool.and_eq_true, decide_eq_true_eq] at named
              simp [State.modeFor, named, Element.isCell, Element.isOneOf]
          | cell named =>
              have known := named
              simp only [Element.isCell, Element.isOneOf, Bool.and_eq_true, List.contains_iff_mem,
                List.mem_cons, List.not_mem_nil, or_false, decide_eq_true_eq] at known
              rcases known with ⟨html, name | name⟩ <;>
                simp [State.modeFor, html, name, more, Element.isCell, Element.isOneOf]
          | select _ selects => exact absurd selects (Mode.not_isSelection flow)
          | _ => cases flow

end Context

/-! ## What is shown in the end -/

/-- The names of the elements that are put into the head of a document as long as nothing else has
been read. -/
def leadingNames : List String := "noscript" :: State.sharedStarts

/-- The names of elements that stand in a document only where a tag has opened them. The body is
opened once. -/
def writtenNames : List String := "body" :: leadingNames

def Item.isWritten : Item → Bool
  | .element name _ => (writtenNames.map lowered).contains name
  | .char _ => false

/-- The items, with others between them that are none of the head. -/
structure Supplies (items extra : List Item) : Prop where
  sublist : items.Sublist extra
  written : extra.filter Item.isWritten = items.filter Item.isWritten

namespace Supplies

theorem refl (items : List Item) : Supplies items items := ⟨.refl _, rfl⟩

theorem append {items extra others more : List Item} (one : Supplies items extra)
    (other : Supplies others more) : Supplies (items ++ others) (extra ++ more) where
  sublist := one.sublist.append other.sublist
  written := by rw [List.filter_append, List.filter_append, one.written, other.written]

end Supplies

theorem isWritten_item {tag : Element} (other : lowered tag.name ∉ writtenNames.map lowered) :
    tag.item.isWritten = false := by
  simpa [Element.item, Item.isWritten] using other

/-! ## States whose new content comes last -/

/-- What is added comes last in the document, and is read by these rules. -/
structure State.Laid (base : Base) (situation : Situation) (state : State) : Prop where
  order : ∃ stop, state.arena.InOrder stop ∧
    ∀ node ∈ state.opened, stop node = state.arena.slots.size
  elements : ∀ node ∈ state.opened, 0 < node ∧ ∃ tag, state.arena.element? node = some tag
  descending : state.opened.Pairwise (· > ·)
  context : Context state.element base situation state.opened
  formatting : ∀ {node tag}, .element node tag ∈ state.formatting →
    state.arena.element? node = some tag.element ∧ tag.name ∈ "a" :: "nobr" :: formattingNames
  form : ∀ node ∈ state.form?, ∃ tag, state.arena.element? node = some tag ∧
    tag.isDecisive = false
  templates : state.templateModes = []
  fostering : state.fostering = false
  pending : ∀ part ∈ state.pending, part.1 = true

/-- The state goes over into another one, which shows these items behind what was shown before. -/
structure State.Reaches (base : Base) (situation : Situation) (state next : State)
    (items : List Item) : Prop where
  laid : next.Laid base situation
  shows : ∃ extra, state.arena.Extension next.arena extra ∧ Supplies items extra
  mode : next.mode = state.mode

namespace State

variable {base : Base} {situation : Situation} {state : State}

theorem Laid.reaches (laid : state.Laid base situation) :
    state.Reaches base situation state [] := ⟨laid, ⟨_, .refl _, .refl _⟩, rfl⟩

theorem Reaches.trans {below : Base} {middle : Situation} {next last : State}
    {items others : List Item} (one : state.Reaches below middle next items)
    (other : next.Reaches base situation last others) :
    state.Reaches base situation last (items ++ others) := by
  obtain ⟨extra, extended, supplies⟩ := one.shows
  obtain ⟨more, further, suppliesMore⟩ := other.shows
  exact ⟨other.laid, ⟨_, extended.trans further, supplies.append suppliesMore⟩,
    other.mode.trans one.mode⟩

/-- Nothing is shown on the way. -/
theorem Reaches.after {below : Base} {middle : Situation} {next last : State} {items : List Item}
    (one : state.Reaches below middle next [])
    (other : next.Reaches base situation last items) :
    state.Reaches base situation last items := one.trans other

/-- What is shown besides belongs to nothing that has been read. -/
theorem Reaches.quiet {next : State} {items : List Item}
    (reaches : state.Reaches base situation next items)
    (plain : items.filter Item.isWritten = []) : state.Reaches base situation next [] := by
  obtain ⟨extra, extended, supplies⟩ := reaches.shows
  exact ⟨reaches.laid, ⟨extra, extended, List.nil_sublist _, supplies.written.trans plain⟩,
    reaches.mode⟩

namespace Laid

theorem exists_current (laid : state.Laid base situation) :
    ∃ node rest tag, state.opened = node :: rest ∧ 0 < node ∧
      state.arena.element? node = some tag ∧ state.place = .inside node := by
  obtain ⟨node, rest, opened⟩ := laid.context.exists_cons
  have member : node ∈ state.opened := opened ▸ List.mem_cons_self
  obtain ⟨positive, tag, named⟩ := laid.elements node member
  refine ⟨node, rest, tag, opened, positive, named, ?_⟩
  simp [State.place, State.placeIn, State.current?, State.insideOf, opened, laid.fostering,
    laid.context.isHtml_template node member]

/-- With a new last node in the innermost element, the open elements still come last. -/
theorem exists_stop (laid : state.Laid base situation) {node : Nat} {rest : List Nat}
    {tag : Element} (opened : state.opened = node :: rest)
    (named : state.arena.element? node = some tag) (content : Content) :
    ∃ stop, (state.arena.grow node content).InOrder stop ∧
      stop state.arena.slots.size = state.arena.slots.size + 1 ∧
      ∀ other ∈ state.opened, stop other = state.arena.slots.size + 1 := by
  obtain ⟨stop, ordered, last⟩ := laid.order
  have inner : node ∈ state.opened := opened ▸ List.mem_cons_self
  have paired : tag.isVoid = false := by
    have paired := laid.context.isVoid node inner
    rwa [State.element, Arena.element, named] at paired
  refine ⟨_, ordered.grow named paired (last node inner) content,
    Arena.InOrder.grown_size node, fun other member => ?_⟩
  refine Arena.InOrder.grown_of_last ?_ (last other member)
  have descending := laid.descending
  rw [opened] at descending member
  rcases List.mem_cons.mp member with rfl | outer
  · exact Nat.le_refl _
  · exact Nat.le_of_lt (List.rel_of_pairwise_cons descending outer)

theorem element_eq (laid : state.Laid base situation) {arena : Arena} {items : List Item}
    (extended : state.arena.Extension arena items) :
    ∀ node ∈ state.opened, arena.element node = state.element node := by
  intro node member
  obtain ⟨-, tag, named⟩ := laid.elements node member
  rw [State.element, Arena.element, Arena.element, extended.element?_of_some named, named]

/-- A document that has been extended in order. -/
theorem withArena (laid : state.Laid base situation) {arena : Arena} {items : List Item}
    (extended : state.arena.Extension arena items) {stop : Nat → Nat}
    (ordered : arena.InOrder stop) (last : ∀ node ∈ state.opened, stop node = arena.slots.size) :
    { state with arena := arena }.Laid base situation where
  order := ⟨stop, ordered, last⟩
  elements node member := by
    obtain ⟨positive, tag, named⟩ := laid.elements node member
    exact ⟨positive, tag, extended.element?_of_some named⟩
  descending := laid.descending
  context := laid.context.congr (laid.element_eq extended)
  formatting member := by
    obtain ⟨named, known⟩ := laid.formatting member
    exact ⟨extended.element?_of_some named, known⟩
  form node member := by
    obtain ⟨tag, named, plain⟩ := laid.form node member
    exact ⟨tag, extended.element?_of_some named, plain⟩
  templates := laid.templates
  fostering := laid.fostering
  pending := laid.pending

theorem insertText (laid : state.Laid base situation) (content : String) :
    state.Reaches base situation (state.insertText content) (textItems content) := by
  obtain ⟨node, rest, tag, opened, positive, named, place⟩ := laid.exists_current
  have inserted : state.insertText content =
      { state with arena := state.arena.appendText node content } := by
    rw [State.insertText, place]
  rw [inserted]
  rcases Arena.appendText_cases state.arena node with ⟨last, ends, text⟩ | fresh
  · obtain ⟨stop, ordered, reaches⟩ := laid.order
    have final := ordered.last_text (Arena.lt_size_of_element? named)
      (reaches node (opened ▸ List.mem_cons_self)) ends text
    have extended := Arena.extension_extendText text final content
    rw [Arena.appendText_of_text ends text]
    refine ⟨laid.withArena extended (ordered.extendText last content) fun other member => ?_,
      ⟨_, extended, .refl _⟩, rfl⟩
    rw [Arena.size_extendText]
    exact reaches other member
  · obtain ⟨stop, ordered, -, reaches⟩ := laid.exists_stop opened named (.text content)
    have extended := Arena.extension_grow named (Nat.ne_of_gt positive) (.text content)
    rw [fresh]
    refine ⟨laid.withArena extended ordered fun other member => ?_, ⟨_, extended, .refl _⟩, rfl⟩
    rw [Arena.size_grow]
    exact reaches other member

/-- A new node that is not opened. -/
theorem insertLeaf (laid : state.Laid base situation) {node : Nat} {rest : List Nat}
    {tag : Element} (opened : state.opened = node :: rest) (positive : 0 < node)
    (named : state.arena.element? node = some tag) (content : Content) :
    state.Reaches base situation { state with arena := state.arena.grow node content }
      content.items := by
  obtain ⟨stop, ordered, -, reaches⟩ := laid.exists_stop opened named content
  have extended := Arena.extension_grow named (Nat.ne_of_gt positive) content
  refine ⟨laid.withArena extended ordered fun other member => ?_, ⟨_, extended, .refl _⟩, rfl⟩
  rw [Arena.size_grow]
  exact reaches other member

theorem insertComment (laid : state.Laid base situation) (content : String) :
    state.Reaches base situation (state.insertComment content) [] := by
  obtain ⟨node, rest, tag, opened, positive, named, place⟩ := laid.exists_current
  have inserted : state.insertComment content =
      { state with arena := state.arena.grow node (.comment content) } := by
    rw [State.insertComment, place]
    rfl
  rw [inserted]
  exact laid.insertLeaf opened positive named (.comment content)

theorem create_eq {tag : Element} (other : tag.isHtml "template" = false) :
    state.create tag =
      ({ state with arena := (state.arena.add (.element tag)).1 }, state.arena.slots.size) := by
  rw [State.create, Arena.addElement_of_other _ other]
  rfl

theorem insertClosed (laid : state.Laid base situation) {tag : Element}
    (other : tag.isHtml "template" = false) :
    state.Reaches base situation (state.insertClosed tag) [tag.item] := by
  obtain ⟨node, rest, parent, opened, positive, named, place⟩ := laid.exists_current
  have inserted : state.insertClosed tag =
      { state with arena := state.arena.grow node (.element tag) } := by
    rw [State.insertClosed, place, create_eq other]
    rfl
  rw [inserted]
  exact laid.insertLeaf opened positive named (.element tag)

/-- A new element is put at the end of the innermost one. -/
theorem exists_insertOpen (laid : state.Laid base situation) {tag : Element}
    (other : tag.isHtml "template" = false) :
    ∃ node rest parent, state.opened = node :: rest ∧ 0 < node ∧
      state.arena.element? node = some parent ∧
      state.insertOpen tag =
        ({ state with
            arena := state.arena.grow node (.element tag)
            opened := state.arena.slots.size :: state.opened }, state.arena.slots.size) := by
  obtain ⟨node, rest, parent, opened, positive, named, place⟩ := laid.exists_current
  refine ⟨node, rest, parent, opened, positive, named, ?_⟩
  rw [State.insertOpen, place, create_eq other]
  rfl

/-- What is open when an element has been opened, and the number of the element. -/
theorem insertOpen (laid : state.Laid base situation) {tag : Element} {further : Base}
    {inner : Situation}
    (other : tag.isHtml "template" = false)
    (enters : ∀ {element : Nat → Element} {nodes}, element state.arena.slots.size = tag →
      Context element base situation nodes →
      Context element further inner (state.arena.slots.size :: nodes)) :
    state.Reaches further inner (state.insertOpen tag).1 [tag.item] ∧
      (state.insertOpen tag).1.arena.element? (state.insertOpen tag).2 = some tag := by
  obtain ⟨node, rest, parent, opened, positive, named, inserted⟩ := laid.exists_insertOpen other
  have inside := Arena.lt_size_of_element? named
  have own : (state.arena.grow node (.element tag)).element? state.arena.slots.size = some tag := by
    rw [Arena.element?_grow inside, if_pos rfl]
    rfl
  obtain ⟨stop, ordered, fresh, reaches⟩ := laid.exists_stop opened named (.element tag)
  have extended := Arena.extension_grow named (Nat.ne_of_gt positive) (.element tag)
  have grown : { state with arena := state.arena.grow node (.element tag) }.Laid base situation :=
    laid.withArena extended ordered fun other member => by
      rw [Arena.size_grow]
      exact reaches other member
  rw [inserted]
  refine ⟨⟨{ grown with
    order := ⟨stop, ordered, ?_⟩
    elements := ?_
    descending := ?_
    context := ?_ }, ⟨_, extended, .refl _⟩, rfl⟩, own⟩
  · have size : state.arena.slots.size + 1 =
        (state.arena.grow node (.element tag)).slots.size := by rw [Arena.size_grow]
    exact List.forall_mem_cons.mpr ⟨fresh.trans size, fun other member =>
      (reaches other member).trans size⟩
  · exact List.forall_mem_cons.mpr ⟨⟨by omega, tag, own⟩, grown.elements⟩
  · refine List.pairwise_cons.mpr ⟨fun other member => ?_, laid.descending⟩
    obtain ⟨-, old, there⟩ := laid.elements other member
    exact Arena.lt_size_of_element? there
  · refine enters ?_ grown.context
    rw [State.element, Arena.element, own]
    rfl

/-! ### Closing elements -/

theorem closing {further : Base} {inner : Situation} (laid : state.Laid base situation)
    {opened : List Nat} (sub : opened.Sublist state.opened)
    (context : Context state.element further inner opened) :
    state.Reaches further inner { state with opened := opened } [] where
  laid := { laid with
    order := by
      obtain ⟨stop, ordered, last⟩ := laid.order
      exact ⟨stop, ordered, fun node member => last node (sub.mem member)⟩
    elements := fun node member => laid.elements node (sub.mem member)
    descending := laid.descending.sublist sub
    context }
  shows := ⟨_, .refl _, .refl _⟩
  mode := rfl

theorem withFormatting (laid : state.Laid base situation) {formatting : List Formatting}
    (known : ∀ {node tag}, .element node tag ∈ formatting →
      state.arena.element? node = some tag.element ∧
        tag.name ∈ "a" :: "nobr" :: formattingNames) :
    state.Reaches base situation { state with formatting := formatting } [] :=
  ⟨{ laid with formatting := known }, ⟨_, .refl _, .refl _⟩, rfl⟩

theorem clearFormatting (laid : state.Laid base situation) :
    state.Reaches base situation state.clearFormatting [] :=
  laid.withFormatting fun member =>
    laid.formatting (((List.tail_sublist _).trans (List.dropWhile_sublist _)).mem member)

theorem addMarker (laid : state.Laid base situation) :
    state.Reaches base situation state.addMarker [] :=
  laid.withFormatting fun member => laid.formatting ((List.mem_cons.mp member).resolve_left nofun)

theorem dropFormatting (laid : state.Laid base situation) (node : Nat) :
    state.Reaches base situation (state.dropFormatting node) [] :=
  laid.withFormatting fun member => laid.formatting (List.mem_of_mem_filter member)

section Rules

variable {mode : Mode}

theorem dropWhile (laid : state.Laid base (.rules mode)) {test : Nat → Bool}
    (plain : ∀ node, test node = true → (state.element node).isDecisive = false) :
    state.Reaches base (.rules mode) { state with opened := state.opened.dropWhile test } [] := by
  refine laid.closing (List.dropWhile_sublist _) ?_
  have context := laid.context
  rw [← List.takeWhile_append_dropWhile (p := test) (l := state.opened)] at context
  exact context.drop fun node member => plain node (List.mem_takeWhile_imp member)

theorem closeImplied (laid : state.Laid base (.rules mode)) {names : List String}
    (plain : ∀ name ∈ names, name ∉ decisiveNames) :
    state.Reaches base (.rules mode) (state.closeImplied names) [] := by
  refine laid.dropWhile fun node one => ?_
  simp only [Element.isOneOf, Bool.and_eq_true, List.contains_iff_mem] at one
  simp [Element.isDecisive, Element.isOneOf, plain _ one.2]

theorem pop (laid : state.Laid base (.rules mode)) (plain : state.current.isDecisive = false) :
    state.Reaches base (.rules mode) state.pop [] := by
  obtain ⟨node, rest, tag, opened, -, named, -⟩ := laid.exists_current
  refine laid.closing (List.tail_sublist _) ?_
  have context : Context state.element base (.rules mode) ([node] ++ rest) := by
    have context := laid.context
    rwa [opened] at context
  rw [current, opened] at plain
  rw [opened]
  refine context.drop fun other member => ?_
  rwa [List.mem_singleton.mp member]

theorem popCurrent (laid : state.Laid base (.rules mode)) {name : String}
    (named : state.current.isHtml name = true) (plain : name ∉ decisiveNames) :
    state.Reaches base (.rules mode) state.pop [] := by
  refine laid.pop ?_
  simp only [Element.isHtml, Bool.and_eq_true, decide_eq_true_eq] at named
  simp [Element.isDecisive, Element.isOneOf, named.2, plain]

theorem removeOpen (laid : state.Laid base (.rules mode)) {node : Nat}
    (plain : (state.element node).isDecisive = false) :
    state.Reaches base (.rules mode) (state.removeOpen node) [] :=
  laid.closing List.erase_sublist (laid.context.erase plain)

/-- The elements up to the first one that is wanted are closed. -/
theorem closeThrough (laid : state.Laid base situation) {wanted : Element → Bool}
    {above rest : List Nat} {node : Nat} (opened : state.opened = above ++ node :: rest)
    (missed : ∀ other ∈ above, wanted (state.element other) = false)
    (hit : wanted (state.element node) = true)
    (context : Context state.element base (.rules mode) rest) :
    state.Reaches base (.rules mode) (state.popThrough wanted) [] := by
  have left : (state.opened.dropWhile fun node => !wanted (state.element node)).tail = rest := by
    rw [opened, List.dropWhile_append_of_pos (by simpa using missed),
      List.dropWhile_cons_of_neg (by simp [hit])]
    rfl
  refine laid.closing ((List.tail_sublist _).trans (List.dropWhile_sublist _)) ?_
  rwa [left]

/-- An element that is found where the search for it is bounded is closed with those inside it. -/
theorem popThrough (laid : state.Laid base (.rules mode)) (flow : mode.isFlow = true)
    {bounds wanted : Element → Bool}
    (bounded : ∀ tag, tag.isHtml "html" = true ∨ tag.isHtml "caption" = true ∨ tag.isCell = true →
      bounds tag = true)
    (unwanted : ∀ tag, mode.isHolder tag = true → wanted tag = false)
    (found : state.inScope bounds wanted = true) :
    state.Reaches base (.rules mode) (state.popThrough wanted) [] := by
  obtain ⟨above, node, rest, opened, missed, hit, -, context⟩ :=
    laid.context.exists_found flow rfl bounded (fun node => unwanted _) found
  exact laid.closeThrough opened missed hit context

theorem popThroughName (laid : state.Laid base (.rules mode)) (flow : mode.isFlow = true)
    {bounds : Element → Bool}
    (bounded : ∀ tag, tag.isHtml "html" = true ∨ tag.isHtml "caption" = true ∨ tag.isCell = true →
      bounds tag = true)
    {name : String} (plain : name ∉ decisiveNames) (found : state.nameInScope bounds name = true) :
    state.Reaches base (.rules mode) (state.popThroughName name) [] := by
  refine laid.popThrough flow bounded (fun tag holder => ?_) found
  cases named : tag.isHtml name with
  | false => rfl
  | true =>
      have decisive := Mode.isDecisive_of_isHolder holder
      simp only [Element.isHtml, Bool.and_eq_true, decide_eq_true_eq] at named
      simp [Element.isDecisive, Element.isOneOf, named.2, plain] at decisive

end Rules

end Laid

/-! ### Bounds -/

theorem boundsScope_of_holder (tag : Element)
    (holder : tag.isHtml "html" = true ∨ tag.isHtml "caption" = true ∨ tag.isCell = true) :
    tag.boundsScope = true := by
  simp only [Element.isHtml, Element.isCell, Element.isOneOf, Bool.and_eq_true, decide_eq_true_eq,
    List.contains_iff_mem, List.mem_cons, List.not_mem_nil, or_false] at holder
  rcases holder with ⟨space, name⟩ | ⟨space, name⟩ | ⟨space, name | name⟩ <;>
    simp [Element.boundsScope, Element.isOneOf, space, name]

theorem boundsButton_of_holder (tag : Element)
    (holder : tag.isHtml "html" = true ∨ tag.isHtml "caption" = true ∨ tag.isCell = true) :
    tag.boundsButton = true := by
  rw [Element.boundsButton, boundsScope_of_holder tag holder, Bool.true_or]

theorem boundsItem_of_holder (tag : Element)
    (holder : tag.isHtml "html" = true ∨ tag.isHtml "caption" = true ∨ tag.isCell = true) :
    tag.boundsItem = true := by
  rw [Element.boundsItem, boundsScope_of_holder tag holder, Bool.true_or]

theorem isSpecial_of_holder (tag : Element)
    (holder : tag.isHtml "html" = true ∨ tag.isHtml "caption" = true ∨ tag.isCell = true) :
    tag.isSpecial = true := by
  simp only [Element.isHtml, Element.isCell, Element.isOneOf, Bool.and_eq_true, decide_eq_true_eq,
    List.contains_iff_mem, List.mem_cons, List.not_mem_nil, or_false] at holder
  rcases holder with ⟨space, name⟩ | ⟨space, name⟩ | ⟨space, name | name⟩ <;>
    simp [Element.isSpecial, Element.isOneOf, specialNames, space, name]

/-- Elements that are not looked for may be closed before. -/
theorem popThrough_closeImplied {names : List String} {wanted : Element → Bool}
    (unwanted : ∀ tag, tag.isOneOf names = true → wanted tag = false) :
    (state.closeImplied names).popThrough wanted = state.popThrough wanted := by
  have same : ∀ nodes : List Nat,
      ((nodes.dropWhile fun node => (state.element node).isOneOf names).dropWhile
        fun node => !wanted (state.element node)) =
      nodes.dropWhile fun node => !wanted (state.element node) := by
    intro nodes
    induction nodes with
    | nil => rfl
    | cons node rest ih =>
        cases one : (state.element node).isOneOf names with
        | true => simp [one, unwanted _ one, ih]
        | false => simp [List.dropWhile_cons, one]
  change ({ state with opened := _ } : State) = { state with opened := _ }
  congr 2
  exact same state.opened

theorem popThroughName_closeImplied {names : List String} {name : String} (other : name ∉ names) :
    (state.closeImplied names).popThroughName name = state.popThroughName name := by
  refine popThrough_closeImplied fun tag one => ?_
  simp only [Element.isOneOf, Bool.and_eq_true, List.contains_iff_mem] at one
  have different : tag.name ≠ name := fun same => other (same ▸ one.2)
  simp [Element.isHtml, different]

theorem popThroughName_closeOptional {name : String} (other : name ∉ impliedEndNames) :
    state.closeOptional.popThroughName name = state.popThroughName name :=
  popThroughName_closeImplied other

theorem popThroughName_closeOptionalExcept (name : String) :
    (state.closeOptionalExcept name).popThroughName name = state.popThroughName name :=
  popThroughName_closeImplied (by simp)

/-! ### Formatting elements -/

/-- The names of the elements that are opened again behind the end of a block. -/
def reopenedNames : List String := "a" :: "nobr" :: formattingNames

theorem not_decisive_of_reopened : ∀ name ∈ reopenedNames, name ∉ decisiveNames := by decide

theorem not_written_of_reopened :
    ∀ name ∈ reopenedNames, lowered name ∉ writtenNames.map lowered := by decide

namespace Laid

variable {mode : Mode}

theorem closeParagraphInScope (laid : state.Laid base (.rules mode)) (flow : mode.isFlow = true) :
    state.Reaches base (.rules mode) state.closeParagraphInScope [] := by
  unfold State.closeParagraphInScope
  split
  · next found =>
      rw [State.closeParagraph, popThroughName_closeOptionalExcept]
      exact laid.popThroughName flow boundsButton_of_holder (by decide) found
  · exact laid.reaches

theorem openTag (laid : state.Laid base (.rules mode)) {tag : Tag} {inner : Mode}
    (opens : Opens tag.element mode inner) (other : tag.name ≠ "template") :
    state.Reaches base (.rules inner) (state.openTag tag) [tag.element.item] := by
  refine (laid.insertOpen ?_ ?_).1
  · simp [Element.isHtml, Tag.element, Element.ofName, other]
  · intro element nodes own context
    exact .inside (own ▸ opens) context

/-- An element without rules of its own is read like what is around it. -/
theorem insertContent (laid : state.Laid base (.rules mode))
    (holds : (mode.isFlow || mode.isSelection) = true) {tag : Element}
    (plain : tag.isDecisive = false) :
    state.Reaches base (.rules mode) (state.insertOpen tag).1 [tag.item] ∧
      (state.insertOpen tag).1.arena.element? (state.insertOpen tag).2 = some tag :=
  laid.insertOpen (Element.isHtml_eq_false plain (by decide)) fun same context =>
    .inside (.content holds (same ▸ plain)) context

theorem isDecisive_element {tag : Tag} (plain : tag.name ∉ decisiveNames) :
    tag.element.isDecisive = false := by
  simp [Element.isDecisive, Element.isOneOf, Tag.element, Element.ofName, plain]

theorem openPlain (laid : state.Laid base (.rules mode))
    (holds : (mode.isFlow || mode.isSelection) = true) {tag : Tag}
    (plain : tag.name ∉ decisiveNames) :
    state.Reaches base (.rules mode) (state.openTag tag) [tag.element.item] :=
  (laid.insertContent holds (isDecisive_element plain)).1

theorem replaceFormatting (laid : state.Laid base situation) (node : Nat)
    {entries : List Formatting}
    (known : ∀ {node tag}, .element node tag ∈ entries →
      state.arena.element? node = some tag.element ∧ tag.name ∈ reopenedNames) :
    state.Reaches base situation (state.replaceFormatting node entries) [] := by
  refine laid.withFormatting fun {node tag} member => ?_
  obtain ⟨entry, listed, member⟩ := List.mem_flatMap.mp member
  split at member
  · exact known member
  · obtain rfl := List.mem_singleton.mp member
    exact laid.formatting listed

theorem reopenEntry (laid : state.Laid base (.rules mode)) (flow : mode.isFlow = true)
    {entry : Formatting}
    (known : ∀ node tag, entry = .element node tag → tag.name ∈ reopenedNames) :
    state.Reaches base (.rules mode) (state.reopenEntry entry) [] := by
  cases entry with
  | marker => exact laid.reaches
  | element node tag =>
      have name := known node tag rfl
      have plain := isDecisive_element (not_decisive_of_reopened _ name)
      obtain ⟨opened, own⟩ := laid.insertContent (by rw [flow, Bool.true_or]) plain
      have unread : tag.element.item.isWritten = false :=
        isWritten_item (not_written_of_reopened tag.name name)
      have copy := opened.quiet (List.filter_cons_of_neg (by simp [unread]))
      refine copy.after (opened.laid.replaceFormatting node fun member => ?_)
      cases List.mem_singleton.mp member
      exact ⟨own, name⟩

theorem reopenFormatting (laid : state.Laid base (.rules mode)) (flow : mode.isFlow = true) :
    state.Reaches base (.rules mode) state.reopenFormatting [] := by
  have known : ∀ entry ∈ state.lostFormatting, ∀ node tag, entry = .element node tag →
      tag.name ∈ reopenedNames := by
    rintro entry member node tag rfl
    exact (laid.formatting ((List.takeWhile_sublist _).mem (List.mem_reverse.mp member))).2
  rw [reopenFormatting_eq]
  generalize state.lostFormatting = entries at known
  induction entries generalizing state with
  | nil => exact laid.reaches
  | cons entry entries ih =>
      obtain ⟨first, others⟩ := List.forall_mem_cons.mp known
      have once := laid.reopenEntry flow first
      exact once.after (ih once.laid others)

theorem openFormatting (laid : state.Laid base (.rules mode)) (flow : mode.isFlow = true)
    {tag : Tag} (known : tag.name ∈ reopenedNames) :
    state.Reaches base (.rules mode) (state.openFormatting tag) [tag.element.item] := by
  have plain := isDecisive_element (not_decisive_of_reopened _ known)
  have opened : ∀ {state : State}, state.Laid base (.rules mode) →
      state.Reaches base (.rules mode)
        { (state.insertOpen tag.element).1 with
          formatting := .element (state.insertOpen tag.element).2 tag ::
            (state.insertOpen tag.element).1.formatting } [tag.element.item] := by
    intro state laid
    obtain ⟨opened, own⟩ := laid.insertContent (by rw [flow, Bool.true_or]) plain
    refine opened.trans (opened.laid.withFormatting fun member => ?_)
    rcases List.mem_cons.mp member with same | listed
    · cases same
      exact ⟨own, known⟩
    · exact opened.laid.formatting listed
  unfold State.openFormatting
  dsimp only
  split
  · split
    · next node _ _ _ =>
        have dropped := laid.dropFormatting node
        exact dropped.after (opened dropped.laid)
    · exact opened laid
  · exact opened laid

theorem reaches_eq_findsOpen (state : State) (name : String) (nodes : List Nat) :
    State.closeOrdinary.reaches state name nodes =
      state.findsOpen Element.isSpecial (fun _ tag => tag.isHtml name) nodes := by
  induction nodes with
  | nil => rfl
  | cons node rest ih => rw [State.closeOrdinary.reaches, State.findsOpen, ih]

theorem closeOrdinary (laid : state.Laid base (.rules mode)) (flow : mode.isFlow = true)
    {name : String} (other : ∀ tag, mode.isHolder tag = true → tag.isHtml name = false) :
    state.Reaches base (.rules mode) (state.closeOrdinary name) [] := by
  unfold State.closeOrdinary
  split
  · next found =>
      rw [reaches_eq_findsOpen] at found
      exact laid.popThrough flow isSpecial_of_holder other found
  · exact laid.reaches

theorem isHtml_of_holder {name : String} (plain : name ∉ decisiveNames) :
    ∀ tag, mode.isHolder tag = true → tag.isHtml name = false := by
  intro tag holder
  have decisive := Mode.isDecisive_of_isHolder holder
  simp only [Element.isDecisive, Element.isOneOf, Bool.and_eq_true, List.contains_iff_mem]
    at decisive
  have different : tag.name ≠ name := fun same => plain (same ▸ decisive.2)
  simp [Element.isHtml, different]

/-- An open element is special if it has rules of its own. -/
theorem isDecisive_of_not_special (laid : state.Laid base situation) {node : Nat}
    (opened : node ∈ state.opened) (other : (state.element node).isSpecial = false) :
    (state.element node).isDecisive = false := by
  have names : ∀ name ∈ decisiveNames, name ∈ voidNames ∨ name ∈ specialNames := by decide
  have paired := laid.context.isVoid node opened
  refine Bool.eq_false_iff.mpr fun decisive => ?_
  simp only [Element.isDecisive, Element.isOneOf, Bool.and_eq_true, List.contains_iff_mem]
    at decisive
  rcases names _ decisive.2 with void | special
  · simp [Element.isVoid, decisive.1, void] at paired
  · simp [Element.isSpecial, Element.isOneOf, decisive.1, special] at other

/-- An open element is closed with those inside it. -/
theorem closeFrom (laid : state.Laid base (.rules mode)) {node : Nat} (opened : node ∈ state.opened)
    (own : (state.element node).isDecisive = false)
    (inside : ∀ other ∈ state.opened.takeWhile (· != node),
      (state.element other).isDecisive = false) :
    state.Reaches base (.rules mode)
      { state with
        opened := state.opened.drop ((state.opened.takeWhile (· != node)).length + 1) } [] := by
  have split : state.opened = (state.opened.takeWhile (· != node) ++ [node]) ++
      state.opened.drop ((state.opened.takeWhile (· != node)).length + 1) := by
    obtain ⟨above, outer, whole, first⟩ := List.eq_append_cons_of_mem opened
    have apart : ∀ other ∈ above, (other != node) = true := fun other member => by
      simpa using ne_of_mem_of_not_mem member first
    have upTo : state.opened.takeWhile (· != node) = above := by
      rw [whole, List.takeWhile_append_of_pos apart, List.takeWhile_cons_of_neg (by simp),
        List.append_nil]
    rw [upTo, whole, List.append_cons]
    simp
  refine laid.closing (List.drop_sublist _ _) ?_
  have context := laid.context
  rw [split] at context
  refine context.drop fun other member => ?_
  rcases List.mem_append.mp member with above | same
  · exact inside other above
  · rwa [List.mem_singleton.mp same]

/-- The end tag of a formatting element closes it, or nothing. -/
theorem splitOnce (laid : state.Laid base (.rules mode)) (flow : mode.isFlow = true)
    {name : String} (known : name ∈ reopenedNames) (whole : (state.splitOnce name).2 = false) :
    state.Reaches base (.rules mode) (state.splitOnce name).1 [] := by
  unfold State.splitOnce at whole ⊢
  split
  · exact laid.closeOrdinary flow (isHtml_of_holder (not_decisive_of_reopened _ known))
  · next node tag found =>
      have listed := mem_recentFormatting (List.mem_of_find?_eq_some found)
      obtain ⟨named, formatting⟩ := laid.formatting listed
      rw [found] at whole
      dsimp only at whole ⊢
      split_ifs at whole ⊢ with closed far
      · exact laid.dropFormatting node
      · exact laid.reaches
      · split
        · next none =>
            have opened : node ∈ state.opened := by simpa using closed
            have own : (state.element node).isDecisive = false := by
              rw [State.element, Arena.element, named]
              exact isDecisive_element (not_decisive_of_reopened _ formatting)
            have dropped := laid.dropFormatting node
            refine dropped.after (dropped.laid.closeFrom opened own fun other above => ?_)
            have missed := List.findIdx?_eq_none_iff.mp none other (List.mem_reverse.mpr above)
            exact laid.isDecisive_of_not_special ((List.takeWhile_sublist _).mem above) missed
        · next depth some =>
            rw [some] at whole
            dsimp only at whole
            split at whole
            · cases whole
            · exact laid.reaches

theorem closeFormatting (laid : state.Laid base (.rules mode)) (flow : mode.isFlow = true)
    {name : String} (known : name ∈ reopenedNames) (whole : (state.splitOnce name).2 = false) :
    state.Reaches base (.rules mode) (state.closeFormatting name) [] := by
  obtain ⟨node, rest, tag, opened, -, -, -⟩ := laid.exists_current
  rw [State.closeFormatting, opened]
  dsimp only
  split
  · next current =>
      rw [Bool.and_eq_true] at current
      refine laid.popCurrent ?_ (not_decisive_of_reopened _ known)
      rw [State.current, opened]
      exact current.1
  · have once := laid.splitOnce flow known whole
    rw [State.splitRepeatedly]
    split
    · next again =>
        rw [again] at whole
        cases whole
    · next done =>
        rw [done] at once
        exact once

/-! ### Items of lists -/

theorem openItem?_eq_some {state : State} {names : List String} {name : String} {nodes : List Nat}
    (found : state.openItem? names nodes = some name) :
    name ∈ names ∧
      state.findsOpen (fun tag => tag.isSpecial && !tag.isOneOf ["address", "div", "p"])
        (fun _ tag => tag.isHtml name) nodes = true := by
  induction nodes with
  | nil => cases found
  | cons node rest ih =>
      rw [State.openItem?] at found
      rw [State.findsOpen]
      split_ifs at found with own bound
      · cases found
        simp only [Element.isOneOf, Bool.and_eq_true, List.contains_iff_mem, decide_eq_true_eq]
          at own
        exact ⟨own.2, by simp [Element.isHtml, own.1]⟩
      · obtain ⟨member, further⟩ := ih found
        refine ⟨member, ?_⟩
        rw [further, Bool.and_true, Bool.eq_false_iff.mpr bound]
        simp

theorem closeItem (laid : state.Laid base (.rules mode)) (flow : mode.isFlow = true)
    {names : List String} {name : String} (plain : ∀ name ∈ names, name ∉ decisiveNames)
    (found : state.openItem? names state.opened = some name) :
    state.Reaches base (.rules mode) ((state.closeOptionalExcept name).popThroughName name) [] := by
  obtain ⟨member, open_⟩ := openItem?_eq_some found
  rw [popThroughName_closeOptionalExcept]
  refine laid.popThroughName flow (fun tag holder => ?_) (plain name member) open_
  have special := isSpecial_of_holder tag holder
  have apart : tag.isOneOf ["address", "div", "p"] = false := by
    simp only [Element.isHtml, Element.isCell, Element.isOneOf, Bool.and_eq_true,
      decide_eq_true_eq, List.contains_iff_mem, List.mem_cons, List.not_mem_nil, or_false] at holder
    rcases holder with ⟨space, name⟩ | ⟨space, name⟩ | ⟨space, name | name⟩ <;>
      simp [Element.isOneOf, name]
  rw [special, apart]
  rfl

end Laid

end State

end Bindery.Html
