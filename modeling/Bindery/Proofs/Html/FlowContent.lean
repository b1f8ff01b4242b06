import Bindery.Html.Construction.Document
import Bindery.Proofs.Html.OpenElements
import Mathlib.Tactic.SplitIfs

/-!
# Content that is kept

Ordinary content that stands where it may is put into the document, every element and every text,
in the order in which it is read.
-/

set_option autoImplicit false

namespace Bindery.Html

/-! ## What is read -/

/-- What a tag shows. -/
def Tag.item (tag : Tag) : Item :=
  .element (lowered tag.name) (tag.attributes.map fun (name, value) => (lowered name, value))

/-- What a token shows. Blanks do not count. -/
def Token.items : Token → List Item
  | .startTag tag => [tag.item]
  | .text content => textItems content
  | _ => []

theorem Tag.item_element (tag : Tag) : tag.element.item = tag.item := by
  simp [Tag.element, Element.ofName, Element.item, Tag.item, Attribute.plain,
    Attribute.writtenName]

theorem toLower_toLower (c : Char) : c.toLower.toLower = c.toLower := by
  unfold Char.toLower
  split
  · next letter =>
      rw [dif_neg]
      intro again
      have lower : 65 ≤ c.val.toNat := UInt32.le_iff_toNat_le.mp letter.1
      have upper : c.val.toNat ≤ 90 := UInt32.le_iff_toNat_le.mp letter.2
      have above : (c.val + ('a'.val - 'A'.val)).toNat ≤ 90 := UInt32.le_iff_toNat_le.mp again.2
      rw [UInt32.toNat_add] at above
      change (c.val.toNat + 32) % 2 ^ 32 ≤ 90 at above
      omega
  · rfl

theorem lowered_respell (spellings : List String) (name : String) :
    lowered (respell spellings name) = lowered name := by
  unfold respell
  cases found : spellings.find? fun spelling => spelling.toList.map Char.toLower = name.toList with
  | none => rfl
  | some spelling =>
      have same := List.find?_some found
      rw [decide_eq_true_eq] at same
      rw [Option.getD_some, lowered, lowered, ← same, List.map_map]
      exact List.map_congr_left fun c _ => (toLower_toLower c).symm

theorem lowered_attributeName (space : Space) (name : String) :
    lowered (space.attributeName name) = lowered name := by
  cases space with
  | html => rfl
  | svg => exact lowered_respell _ _
  | mathml =>
      unfold Space.attributeName
      dsimp only
      split
      · next same =>
          rw [same]
          decide
      · rfl

theorem writtenName_foreignAttribute (name value : String) :
    (foreignAttribute name value).writtenName = name ∧
      (foreignAttribute name value).value = value := by
  unfold foreignAttribute
  split_ifs with xlink xml xmlns named
  · have names : ∀ name ∈ ["xlink:actuate", "xlink:arcrole", "xlink:href", "xlink:role",
        "xlink:show", "xlink:title", "xlink:type"],
        "xlink:" ++ String.ofList (name.toList.drop 6) = name := by decide +kernel
    exact ⟨names name (List.contains_iff_mem.mp xlink), rfl⟩
  · have names : ∀ name ∈ ["xml:lang", "xml:space"],
        "xml:" ++ String.ofList (name.toList.drop 4) = name := by decide +kernel
    exact ⟨names name (List.contains_iff_mem.mp xml), rfl⟩
  · simp [Attribute.writtenName, xmlns]
  · have written : "xmlns:" ++ "xlink" = "xmlns:xlink" := by decide
    simp [Attribute.writtenName, named, written]
  · exact ⟨rfl, rfl⟩

/-- In SVG and MathML only the case of names is changed. -/
theorem Tag.item_foreignElement (tag : Tag) (space : Space) (respelled : Bool) :
    (tag.foreignElement space respelled).item = tag.item := by
  unfold Tag.foreignElement Element.item Tag.item
  congr 1
  · dsimp only
    split
    · exact lowered_respell _ _
    · rfl
  · rw [List.map_map]
    refine List.map_congr_left fun (name, value) _ => ?_
    obtain ⟨written, kept⟩ := writtenName_foreignAttribute (space.attributeName name) value
    simp [written, kept, lowered_attributeName]

/-! ## What may stand where -/

/-- The tags of a document as a whole, and a name that is read as another one. -/
def rootNames : List String :=
  ["html", "head", "body", "frameset", "frame", "template", "image"]

namespace State

/-- What is read next is read by these rules. -/
def situation (state : State) : Situation :=
  match state.mode with
  | .inText => .text state.returnMode
  | .inTableText => .rules state.returnMode
  | mode => .rules mode

/-- A link or an end tag of the name splits the formatting element that it closes. -/
def splits (state : State) (name : String) : Bool := (state.splitOnce name).2

/-- The start tag may stand in ordinary content. Forms do not nest. -/
def startFitsFlow (state : State) (tag : Tag) : Bool :=
  !(rootNames ++ tablePartNames).contains tag.name &&
    (tag.name != "form" || state.form?.isNone) && (tag.name != "a" || !state.splits "a") &&
    (tag.name != "nobr" || !state.reopenFormatting.splits "nobr")

/-- What is open fits the mode, and so does what is added. -/
structure Sits (base : Base) (state : State) : Prop where
  laid : state.Laid base state.situation
  tableText : state.mode = .inTableText → state.returnMode ∈ [.inTable, .inTableBody, .inRow]

/-- A token has been read: these items have been added at the end of the document. -/
structure Lands (base : Base) (state next : State) (items : List Item) : Prop where
  sits : next.Sits base
  shows : ∃ extra, state.arena.Extension next.arena extra ∧ Supplies items extra

/-- States with the same nodes and the same open elements. -/
structure SameContent (state other : State) : Prop where
  arena : other.arena = state.arena
  opened : other.opened = state.opened
  formatting : other.formatting = state.formatting
  form : other.form? = state.form?
  templates : other.templateModes = state.templateModes
  fostering : other.fostering = state.fostering
  pending : other.pending = state.pending

variable {base : Base} {situation : Situation} {state : State} {mode : Mode}

theorem Laid.same (laid : state.Laid base situation) {other : State}
    (same : state.SameContent other) : other.Laid base situation := by
  obtain ⟨arena, opened, formatting, form, templates, fostering, pending⟩ := same
  obtain ⟨order, elements, descending, context, known, forms, none, straight, blank⟩ := laid
  have element : other.element = state.element := by
    funext node
    rw [State.element, State.element, arena]
  refine ⟨?_, ?_, ?_, ?_, ?_, ?_, ?_, ?_, ?_⟩
  · rwa [arena, opened]
  · rwa [arena, opened]
  · rwa [opened]
  · rwa [element, opened]
  · rwa [arena, formatting]
  · rwa [arena, form]
  · rwa [templates]
  · rwa [fostering]
  · rwa [pending]

theorem Reaches.same {next other : State} {items : List Item}
    (reaches : state.Reaches base situation next items) (same : next.SameContent other)
    (mode : other.mode = next.mode) : state.Reaches base situation other items where
  laid := reaches.laid.same same
  shows := by
    rw [same.arena]
    exact reaches.shows
  mode := mode.trans reaches.mode

theorem situation_of_mode (same : state.mode = mode) (text : mode ≠ .inText)
    (table : mode ≠ .inTableText) : state.situation = .rules mode := by
  subst same
  unfold situation
  split <;> simp_all

theorem Laid.sits (laid : state.Laid base (.rules mode)) (same : state.mode = mode) :
    state.Sits base := by
  obtain ⟨text, table⟩ := laid.context.mode_ne
  refine ⟨?_, fun other => absurd (same.symm.trans other) table⟩
  rwa [situation_of_mode same text table]

theorem Reaches.lands {next : State} {items : List Item}
    (reaches : state.Reaches base (.rules mode) next items) (same : state.mode = mode) :
    state.Lands base next items :=
  ⟨reaches.laid.sits (reaches.mode.trans same), reaches.shows⟩

/-- The element that a start tag has opened is read by rules of its own. -/
theorem Reaches.landsIn {next : State} {items : List Item}
    (reaches : state.Reaches base (.rules mode) next items) :
    state.Lands base (next.withMode mode) items := by
  have laid : (next.withMode mode).Laid base (.rules mode) :=
    reaches.laid.same ⟨rfl, rfl, rfl, rfl, rfl, rfl, rfl⟩
  exact ⟨laid.sits rfl, reaches.shows⟩

theorem Lands.after {below : Base} {middle : Situation} {next last : State} {items : List Item}
    (reaches : state.Reaches below middle next []) (lands : next.Lands base last items) :
    state.Lands base last items := by
  obtain ⟨extra, extended, supplies⟩ := reaches.shows
  obtain ⟨more, further, suppliesMore⟩ := lands.shows
  exact ⟨lands.sits, _, extended.trans further, supplies.append suppliesMore⟩

theorem Lands.same {next other : State} {items : List Item} (lands : state.Lands base next items)
    (same : next.SameContent other) (mode : other.mode = next.mode)
    (returnMode : other.returnMode = next.returnMode) : state.Lands base other items where
  sits := by
    have situation : other.situation = next.situation := by
      rw [State.situation, State.situation, mode, returnMode]
    exact ⟨situation ▸ lands.sits.laid.same same, mode ▸ returnMode ▸ lands.sits.tableText⟩
  shows := by
    rw [same.arena]
    exact lands.shows

theorem Lands.ite {condition : Prop} [Decidable condition] {next other : State}
    {items : List Item} (yes : condition → state.Lands base next items)
    (no : ¬ condition → state.Lands base other items) :
    state.Lands base (if condition then next else other) items := by
  split
  · next holds => exact yes holds
  · next fails => exact no fails

theorem sameContent_refuseFrames (state : State) : state.SameContent state.refuseFrames :=
  ⟨rfl, rfl, rfl, rfl, rfl, rfl, rfl⟩

namespace Laid

theorem refuseFrames (laid : state.Laid base situation) :
    state.refuseFrames.Laid base situation := laid.same state.sameContent_refuseFrames

end Laid

theorem Reaches.refuseFrames {next : State} {items : List Item}
    (reaches : state.Reaches base situation next items) :
    state.Reaches base situation next.refuseFrames items :=
  reaches.same next.sameContent_refuseFrames rfl

namespace Laid

/-! ### Elements whose content is text -/

theorem openText (laid : state.Laid base (.rules mode)) (same : state.mode = mode) {tag : Tag}
    (plain : tag.name ∉ decisiveNames) (reading : Reading) :
    state.Lands base (state.openText tag reading) [tag.item] := by
  have indecisive := isDecisive_element plain
  obtain ⟨opened, -⟩ := laid.insertOpen (Element.isHtml_eq_false indecisive (by decide))
    fun own context => .text (own ▸ indecisive) (own ▸ rfl) context
  rw [tag.item_element] at opened
  refine ⟨⟨?_, nofun⟩, opened.shows⟩
  subst same
  exact opened.laid.same ⟨rfl, rfl, rfl, rfl, rfl, rfl, rfl⟩

theorem closedTag (laid : state.Laid base situation) {tag : Tag}
    (other : tag.name ≠ "template") :
    state.Reaches base situation (state.insertClosed tag.element) [tag.item] := by
  have closed := laid.insertClosed (show tag.element.isHtml "template" = false by
    simp [Element.isHtml, Tag.element, Element.ofName, other])
  rwa [tag.item_element] at closed

/-- The tags of the head are read in the same way elsewhere. -/
theorem sharedStart (laid : state.Laid base (.rules mode)) (same : state.mode = mode) {tag : Tag}
    (known : tag.name ∈ leadingNames) (other : tag.name ≠ "template") :
    state.Lands base (state.sharedStart tag) [tag.item] := by
  have names : ∀ name ∈ leadingNames, name ≠ "template" →
      ["base", "basefont", "bgsound", "link", "meta"].contains name = false →
      name ∉ decisiveNames := by decide
  unfold State.sharedStart
  refine .ite (fun _ => (laid.closedTag other).lands same) fun filled => ?_
  have plain := names _ known other (Bool.eq_false_iff.mpr filled)
  refine .ite (fun _ => laid.openText same plain _) fun _ => ?_
  refine .ite (fun _ => laid.openText same plain _) fun _ => ?_
  exact .ite (fun template => absurd template other) fun _ => laid.openText same plain _

end Laid

/-! ## Start tags in ordinary content -/

namespace Laid

variable {tag : Tag}

theorem hasOpen_template (laid : state.Laid base situation) :
    state.hasOpen "template" = false := by
  rw [State.hasOpen, List.any_eq_false]
  intro node member
  rw [laid.context.isHtml_template node member]
  exact Bool.noConfusion

theorem openContent (laid : state.Laid base (.rules mode))
    (holds : (mode.isFlow || mode.isSelection) = true) (plain : tag.name ∉ decisiveNames) :
    state.Reaches base (.rules mode) (state.openTag tag) [tag.item] := by
  have opened := laid.openPlain holds plain
  rwa [tag.item_element] at opened

section Flow

variable (laid : state.Laid base (.rules mode)) (flow : mode.isFlow = true)

include laid flow

theorem openFlow (plain : tag.name ∉ decisiveNames) :
    state.Reaches base (.rules mode) (state.openTag tag) [tag.item] :=
  laid.openContent (by rw [flow, Bool.true_or]) plain

theorem openBlock (plain : tag.name ∉ decisiveNames) :
    state.Reaches base (.rules mode) (state.openBlock tag) [tag.item] := by
  have closed := laid.closeParagraphInScope flow
  exact closed.after (closed.laid.openFlow flow plain)

theorem openHeading (heading : tag.name ∈ headingNames) :
    state.Reaches base (.rules mode) (state.openHeading tag) [tag.item] := by
  have names : ∀ name ∈ headingNames, name ∉ decisiveNames := by decide
  have closed := laid.closeParagraphInScope flow
  unfold State.openHeading
  dsimp only
  split
  · next inner =>
      have popped := closed.laid.pop (by
        rw [Element.isHeading, Element.isOneOf, Bool.and_eq_true, List.contains_iff_mem] at inner
        simp [Element.isDecisive, Element.isOneOf, names _ inner.2])
      exact closed.after (popped.after (popped.laid.openFlow flow (names _ heading)))
  · exact closed.after (closed.laid.openFlow flow (names _ heading))

theorem openForm (plain : tag.name ∉ decisiveNames) (none : state.form? = none) :
    state.Reaches base (.rules mode) (state.openForm tag) [tag.item] := by
  have closed := laid.closeParagraphInScope flow
  have indecisive := isDecisive_element plain
  obtain ⟨opened, own⟩ := closed.laid.insertContent (by rw [flow, Bool.true_or]) indecisive
  rw [tag.item_element] at opened
  have formed : state.openForm tag =
      { (state.closeParagraphInScope.insertOpen tag.element).1 with
        form? := some (state.closeParagraphInScope.insertOpen tag.element).2 } := by
    simp [State.openForm, laid.hasOpen_template, none]
  rw [formed]
  refine closed.after ⟨{ opened.laid with form := ?_ }, opened.shows, opened.mode⟩
  rintro node ⟨⟩
  exact ⟨_, own, indecisive⟩

theorem openItem (plain : tag.name ∉ decisiveNames) :
    state.Reaches base (.rules mode) (state.openItem tag) [tag.item] := by
  have refused : state.Reaches base (.rules mode) state.refuseFrames [] :=
    laid.reaches.refuseFrames
  have items : ∀ name ∈ (if tag.name = "li" then ["li"] else ["dd", "dt"]),
      name ∉ decisiveNames := by
    split <;> decide
  unfold State.openItem
  dsimp only
  split
  · next name found =>
      have closed := refused.laid.closeItem flow items found
      exact refused.after (closed.after (closed.laid.openBlock flow plain))
  · exact refused.after (refused.laid.openBlock flow plain)

theorem openButton (plain : tag.name ∉ decisiveNames) :
    state.Reaches base (.rules mode) (state.openButton tag) [tag.item] := by
  have opened : ∀ {closed : State}, state.Reaches base (.rules mode) closed [] →
      state.Reaches base (.rules mode) (closed.reopenFormatting.openTag tag).refuseFrames
        [tag.item] := by
    intro closed reaches
    have reopened := reaches.laid.reopenFormatting flow
    exact (reaches.after (reopened.after (reopened.laid.openFlow flow plain))).refuseFrames
  unfold State.openButton
  dsimp only
  split
  · next found =>
      refine opened ?_
      rw [popThroughName_closeOptional (by decide)]
      exact laid.popThroughName flow boundsScope_of_holder (by decide) found
  · exact opened laid.reaches

theorem openLink (known : tag.name ∈ reopenedNames) (whole : state.splits "a" = false) :
    state.Reaches base (.rules mode) (state.openLink tag) [tag.item] := by
  have opened : ∀ {closed : State}, state.Reaches base (.rules mode) closed [] →
      state.Reaches base (.rules mode) (closed.reopenFormatting.openFormatting tag)
        [tag.item] := by
    intro closed reaches
    have reopened := reaches.laid.reopenFormatting flow
    have formatted := reopened.laid.openFormatting flow known
    rw [tag.item_element] at formatted
    exact reaches.after (reopened.after formatted)
  unfold State.openLink
  dsimp only
  split
  · next node other found =>
      obtain ⟨named, formatting⟩ :=
        laid.formatting (mem_recentFormatting (List.mem_of_find?_eq_some found))
      have known : "a" ∈ reopenedNames := by decide
      have closed := laid.closeFormatting flow known whole
      have dropped := closed.laid.dropFormatting node
      obtain ⟨extra, extended, -⟩ := (closed.after dropped).shows
      have plain : (((state.closeFormatting "a").dropFormatting node).element node).isDecisive =
          false := by
        rw [State.element, Arena.element, extended.element?_of_some named]
        exact isDecisive_element (not_decisive_of_reopened _ formatting)
      exact opened (closed.after (dropped.after (dropped.laid.removeOpen plain)))
  · exact opened laid.reaches

theorem openUnbroken (known : tag.name ∈ reopenedNames)
    (whole : state.reopenFormatting.splits "nobr" = false) :
    state.Reaches base (.rules mode) (state.openUnbroken tag) [tag.item] := by
  have reopened := laid.reopenFormatting flow
  have opened : ∀ {closed : State}, state.Reaches base (.rules mode) closed [] →
      state.Reaches base (.rules mode) (closed.openFormatting tag) [tag.item] := by
    intro closed reaches
    have formatted := reaches.laid.openFormatting flow known
    rw [tag.item_element] at formatted
    exact reaches.after formatted
  unfold State.openUnbroken
  dsimp only
  split
  · have unbroken : "nobr" ∈ reopenedNames := by decide
    have closed := reopened.laid.closeFormatting flow unbroken whole
    exact opened (reopened.after (closed.after (closed.laid.reopenFormatting flow)))
  · exact opened reopened

theorem openTable (table : tag.name = "table") :
    state.Lands base (state.openTable tag) [tag.item] := by
  have own : tag.element.isHtml "table" = true := by
    simp [Element.isHtml, Tag.element, Element.ofName, table]
  have opened : ∀ {closed : State}, state.Reaches base (.rules mode) closed [] →
      state.Lands base ((closed.openTag tag).refuseFrames.withMode .inTable) [tag.item] := by
    intro closed reaches
    have opened := reaches.laid.openTag (.table flow own) (by rw [table]; decide)
    rw [tag.item_element] at opened
    exact (reaches.after opened).refuseFrames.landsIn
  unfold State.openTable
  dsimp only
  split
  · exact opened laid.reaches
  · exact opened (laid.closeParagraphInScope flow)

theorem openSelect (select : tag.name = "select") :
    state.Lands base (state.openSelect tag) [tag.item] := by
  have own : tag.element.isHtml "select" = true := by
    simp [Element.isHtml, Tag.element, Element.ofName, select]
  have reopened := laid.reopenFormatting flow
  have opened : ∀ selection : Mode, selection.isSelection = true →
      state.Lands base ((state.reopenFormatting.openTag tag).refuseFrames.withMode selection)
        [tag.item] := by
    intro selection selects
    have opened := reopened.laid.openTag (.select flow selects own) (by rw [select]; decide)
    rw [tag.item_element] at opened
    exact (reopened.after opened).refuseFrames.landsIn
  unfold State.openSelect
  dsimp only
  split
  · exact opened _ rfl
  · exact opened _ rfl

theorem openOption (plain : tag.name ∉ decisiveNames) :
    state.Reaches base (.rules mode) (state.openOption tag) [tag.item] := by
  have opened : ∀ {closed : State}, state.Reaches base (.rules mode) closed [] →
      state.Reaches base (.rules mode) (closed.reopenFormatting.openTag tag) [tag.item] := by
    intro closed reaches
    have reopened := reaches.laid.reopenFormatting flow
    exact reaches.after (reopened.after (reopened.laid.openFlow flow plain))
  unfold State.openOption
  dsimp only
  split
  · next option => exact opened (laid.popCurrent option (by decide))
  · exact opened laid.reaches

theorem openRuby (plain : tag.name ∉ decisiveNames) :
    state.Reaches base (.rules mode) (state.openRuby tag) [tag.item] := by
  have names : ∀ name ∈ impliedEndNames, name ∉ decisiveNames := by decide
  unfold State.openRuby
  dsimp only
  split
  · split
    · have closed := laid.closeImplied names
      exact closed.after (closed.laid.openFlow flow plain)
    · have closed := laid.closeImplied fun name member =>
        names name (List.mem_of_mem_filter (p := (· ≠ "rtc")) member)
      exact closed.after (closed.laid.openFlow flow plain)
  · exact laid.openFlow flow plain

end Flow

theorem insertForeign (laid : state.Laid base (.rules mode))
    (holds : (mode.isFlow || mode.isSelection) = true) (space : Space) (foreign : space ≠ .html)
    (respelled : Bool) :
    state.Reaches base (.rules mode) (state.insertForeign tag space respelled) [tag.item] := by
  have plain : ∀ names, (tag.foreignElement space respelled).isOneOf names = false := by
    intro names
    simp [Element.isOneOf, Tag.foreignElement, foreign]
  have other : (tag.foreignElement space respelled).isHtml "template" = false := by
    simp [Element.isHtml, Tag.foreignElement, foreign]
  rw [← tag.item_foreignElement space respelled]
  unfold State.insertForeign
  dsimp only
  split
  · exact laid.insertClosed other
  · exact (laid.insertContent holds (plain decisiveNames)).1

end Laid

end State

/-! ## Tokens in ordinary content -/

/-- What is left to do with a token after a look at it: in the end the token has been read. -/
def Step.Lands (base : Base) (state : State) (token : Token) (attempts : Nat) : Step → Prop
  | .done next => state.Lands base next token.items
  | .again next => ∀ more,
      state.Lands base (State.settle (attempts + more) next token) token.items

namespace State

variable {base : Base} {situation : Situation} {state : State} {mode : Mode}

theorem settle_lands {token : Token} {attempts : Nat}
    (lands : (state.step token).Lands base state token attempts) (more : Nat) :
    state.Lands base (settle (attempts + 1 + more) state token) token.items := by
  rw [Nat.add_right_comm, settle]
  cases stepped : state.step token with
  | done next =>
      rw [stepped] at lands
      exact lands
  | again next =>
      rw [stepped] at lands
      exact lands more

namespace Laid

variable {tag : Tag}

theorem insertBlank (laid : state.Laid base situation) (content : String) :
    state.Reaches base situation (state.insertText content) [] := by
  refine (laid.insertText content).quiet (List.filter_eq_nil_iff.mpr fun item member => ?_)
  obtain ⟨c, -, rfl⟩ := List.mem_map.mp member
  exact Bool.noConfusion

theorem closeForm (laid : state.Laid base (.rules mode)) :
    state.Reaches base (.rules mode) state.closeForm [] := by
  unfold State.closeForm
  rw [laid.hasOpen_template, if_neg Bool.noConfusion]
  split
  · exact laid.reaches
  · next node form =>
      obtain ⟨own, named, plain⟩ := laid.form node form
      have forgotten : State.Reaches base (.rules mode) state { state with form? := none } [] :=
        ⟨{ laid with form := by rintro _ ⟨⟩ }, ⟨_, .refl _, .refl _⟩, rfl⟩
      dsimp only
      split
      · have names : ∀ name ∈ impliedEndNames, name ∉ decisiveNames := by decide
        have closed := forgotten.laid.closeImplied names
        refine forgotten.after (closed.after (closed.laid.removeOpen ?_))
        change (state.arena.element node).isDecisive = false
        rw [Arena.element, named]
        exact plain
      · exact forgotten

section Flow

variable (laid : state.Laid base (.rules mode)) (flow : mode.isFlow = true)

include laid flow

theorem closedFlow (other : tag.name ≠ "template") :
    state.Reaches base (.rules mode) (state.reopenFormatting.insertClosed tag.element)
      [tag.item] := by
  have reopened := laid.reopenFormatting flow
  exact reopened.after (reopened.laid.closedTag other)

theorem startInBody (same : state.mode = mode) (fits : state.startFitsFlow tag = true) :
    state.Lands base (state.startInBody tag) [tag.item] := by
  simp only [startFitsFlow, Bool.and_eq_true, Bool.or_eq_true, Bool.not_eq_true', bne_iff_ne,
    ne_eq, Option.isNone_iff_eq_none, ← Bool.not_eq_true, List.contains_iff_mem,
    List.mem_append, not_or] at fits
  obtain ⟨⟨⟨⟨notRoot, notPart⟩, forms⟩, links⟩, unbroken⟩ := fits
  replace links : tag.name = "a" → state.splits "a" = false := fun link =>
    Bool.eq_false_iff.mpr (links.resolve_left (absurd link))
  replace unbroken : tag.name = "nobr" → state.reopenFormatting.splits "nobr" = false := fun nobr =>
    Bool.eq_false_iff.mpr (unbroken.resolve_left (absurd nobr))
  have excluded : ∀ {name}, name ∈ rootNames → tag.name ≠ name := by
    rintro name member rfl
    exact notRoot member
  have among : ∀ {names : List String}, names.contains tag.name = true →
      (∀ name ∈ names, name ∉ decisiveNames) → tag.name ∉ decisiveNames := by
    intro names member indecisive
    exact indecisive _ (List.contains_iff_mem.mp member)
  have named : ∀ {name : String}, tag.name = name → name ∉ decisiveNames →
      tag.name ∉ decisiveNames := by
    rintro name rfl indecisive
    exact indecisive
  have either : ∀ {one other : String},
      (decide (tag.name = one) || decide (tag.name = other)) = true →
      one ∉ decisiveNames → other ∉ decisiveNames → tag.name ∉ decisiveNames := by
    intro one other is first second
    rw [Bool.or_eq_true, decide_eq_true_eq, decide_eq_true_eq] at is
    exact is.elim (named · first) (named · second)
  have reopened := laid.reopenFormatting flow
  have refused := laid.reaches.refuseFrames
  unfold State.startInBody
  refine .ite (fun root => absurd root (excluded (by decide))) fun _ => ?_
  refine .ite (fun shared => ?_) fun notShared => ?_
  · exact laid.sharedStart same (List.mem_cons_of_mem _ (List.contains_iff_mem.mp shared))
      (excluded (by decide))
  refine .ite (fun root => absurd root (excluded (by decide))) fun _ => ?_
  refine .ite (fun root => absurd root (excluded (by decide))) fun _ => ?_
  refine .ite (fun block => ?_) fun _ => ?_
  · exact (laid.openBlock flow (among block (by decide))).lands same
  refine .ite (fun heading => ?_) fun _ => ?_
  · exact (laid.openHeading flow (List.contains_iff_mem.mp heading)).lands same
  refine .ite (fun kept => ?_) fun _ => ?_
  · have opened := (laid.openBlock flow (either kept (by decide) (by decide))).refuseFrames
    refine Reaches.lands ?_ same
    exact opened.same ⟨rfl, rfl, rfl, rfl, rfl, rfl, rfl⟩ rfl
  refine .ite (fun form => ?_) fun _ => ?_
  · exact (laid.openForm flow (named form (by decide)) (forms.resolve_left (absurd form))).lands
      same
  refine .ite (fun item => ?_) fun _ => ?_
  · exact (laid.openItem flow (among item (by decide))).lands same
  refine .ite (fun unread => ?_) fun _ => ?_
  · have opened := laid.openBlock flow (named unread (by decide))
    refine Reaches.lands ?_ same
    exact opened.same ⟨rfl, rfl, rfl, rfl, rfl, rfl, rfl⟩ rfl
  refine .ite (fun button => ?_) fun _ => ?_
  · exact (laid.openButton flow (named button (by decide))).lands same
  refine .ite (fun link => ?_) fun _ => ?_
  · exact (laid.openLink flow (link ▸ by decide) (links link)).lands same
  refine .ite (fun formatting => ?_) fun _ => ?_
  · have known : tag.name ∈ reopenedNames :=
      List.mem_cons_of_mem _ (List.mem_cons_of_mem _ (List.contains_iff_mem.mp formatting))
    have opened := reopened.laid.openFormatting flow known
    rw [tag.item_element] at opened
    exact (reopened.after opened).lands same
  refine .ite (fun nobr => ?_) fun _ => ?_
  · exact (laid.openUnbroken flow (nobr ▸ by decide) (unbroken nobr)).lands
      same
  refine .ite (fun embedded => ?_) fun _ => ?_
  · have opened := reopened.laid.openFlow flow (among embedded (by decide))
    have marked := opened.trans opened.laid.addMarker
    exact (reopened.after marked).refuseFrames.lands same
  refine .ite (fun table => (laid.openTable flow table)) fun notTable => ?_
  refine .ite (fun image => absurd image (excluded (by decide))) fun _ => ?_
  refine .ite (fun _ => ?_) fun notEmpty => ?_
  · exact (laid.closedFlow flow (excluded (by decide))).refuseFrames.lands same
  refine .ite (fun _ => ?_) fun notInput => ?_
  · have closed := laid.closedFlow flow (excluded (by decide))
    exact .ite (fun _ => closed.lands same) fun _ => closed.refuseFrames.lands same
  refine .ite (fun _ => (laid.closedTag (excluded (by decide))).lands same) fun notSource => ?_
  refine .ite (fun _ => ?_) fun notRule => ?_
  · have closed := laid.closeParagraphInScope flow
    have inserted := closed.laid.closedTag (excluded (by decide))
    exact (closed.after inserted).refuseFrames.lands same
  refine .ite (fun area => ?_) fun _ => ?_
  · have opened := refused.laid.openText same (named area (by decide)) (.escapable tag.name)
    exact (Lands.after refused opened).same ⟨rfl, rfl, rfl, rfl, rfl, rfl, rfl⟩ rfl rfl
  refine .ite (fun sample => ?_) fun _ => ?_
  · have closed := laid.closeParagraphInScope flow
    have ready := (closed.after (closed.laid.reopenFormatting flow)).refuseFrames
    have kept := ready.mode.trans same
    exact Lands.after ready (ready.laid.openText kept (named sample (by decide)) _)
  refine .ite (fun frame => ?_) fun _ => ?_
  · exact Lands.after refused (refused.laid.openText same (named frame (by decide)) _)
  refine .ite (fun none => laid.openText same (either none (by decide) (by decide)) _) fun _ => ?_
  refine .ite (fun select => laid.openSelect flow select) fun notSelect => ?_
  refine .ite (fun option => ?_) fun _ => ?_
  · exact (laid.openOption flow (either option (by decide) (by decide))).lands same
  refine .ite (fun ruby => (laid.openRuby flow (among ruby (by decide))).lands same) fun _ => ?_
  have holds : (mode.isFlow || mode.isSelection) = true := by rw [flow, Bool.true_or]
  refine .ite (fun _ => (laid.insertForeign holds _ (by decide) _).lands same) fun _ => ?_
  refine .ite (fun _ => (laid.insertForeign holds _ (by decide) _).lands same) fun _ => ?_
  refine .ite (fun dropped => ?_) fun _ => ?_
  · have names : ∀ name ∈ ["caption", "col", "colgroup", "frame", "head", "tbody", "td", "tfoot",
        "th", "thead", "tr"], name ∈ rootNames ++ tablePartNames := by decide
    exact ((List.mem_append.mp (names _ (List.contains_iff_mem.mp dropped))).elim notRoot
      notPart).elim
  refine (reopened.after (reopened.laid.openFlow flow fun decisive => ?_)).lands same
  have names : ∀ name ∈ decisiveNames, name ∈ rootNames ++ tablePartNames ∨
      name ∈ ["table", "select", "input", "hr"] ∨ sharedStarts.contains name = true ∨
      ["area", "br", "embed", "img", "keygen", "wbr"].contains name = true ∨
      ["param", "source", "track"].contains name = true := by decide
  rcases names _ decisive with outer | apart | shared | empty | source
  · exact (List.mem_append.mp outer).elim notRoot notPart
  · simp only [List.mem_cons, List.not_mem_nil, or_false] at apart
    exact apart.elim notTable (·.elim notSelect (·.elim notInput notRule))
  · exact notShared shared
  · exact notEmpty empty
  · exact notSource source

theorem closeNamed {name : String} {bounds : Element → Bool}
    (bounded : ∀ tag, tag.isHtml "html" = true ∨ tag.isHtml "caption" = true ∨ tag.isCell = true →
      bounds tag = true) (plain : name ∉ decisiveNames) {closed : State}
    (same : closed.popThroughName name = state.popThroughName name) :
    state.Reaches base (.rules mode)
      (if state.nameInScope bounds name then closed.popThroughName name else state) [] := by
  split
  · next found =>
      rw [same]
      exact laid.popThroughName flow bounded plain found
  · exact laid.reaches

/-- An end tag that closes nothing opens a paragraph first. -/
theorem endParagraph :
    state.Reaches base (.rules mode)
      (if state.nameInScope Element.boundsButton "p" then state
        else state.openName "p").closeParagraph [] := by
  split
  · next found =>
      rw [State.closeParagraph, popThroughName_closeOptionalExcept]
      exact laid.popThroughName flow boundsButton_of_holder (by decide) found
  · have plain : (Element.ofName "p" []).isDecisive = false := by decide
    obtain ⟨opened, own⟩ := laid.insertContent (by rw [flow, Bool.true_or]) plain
    have quiet : state.Reaches base (.rules mode) (state.openName "p") [] :=
      opened.quiet (by decide)
    rw [State.closeParagraph, popThroughName_closeOptionalExcept]
    refine quiet.after (quiet.laid.popThroughName flow boundsButton_of_holder (by decide) ?_)
    have current : (state.openName "p").element (state.insertOpen (.ofName "p" [])).2 =
        .ofName "p" [] := by
      rw [State.element, Arena.element]
      exact congrArg (Option.getD · Arena.noElement) own
    have inside : (state.openName "p").opened =
        (state.insertOpen (.ofName "p" [])).2 :: state.opened := by
      rw [State.openName, insertOpen_eq]
    rw [State.nameInScope, State.inScope, inside, State.findsOpen, current]
    rfl

theorem endInBody (same : state.mode = mode) (root : tag.name ∉ rootNames)
    (whole : tag.name ∈ reopenedNames → state.splits tag.name = false)
    (other : ∀ holder, mode.isHolder holder = true → holder.isHtml tag.name = false) :
    state.Lands base (state.endInBody tag) [] := by
  have among : ∀ {names : List String}, names.contains tag.name = true →
      (∀ name ∈ names, name ∉ decisiveNames) → tag.name ∉ decisiveNames := by
    intro names member indecisive
    exact indecisive _ (List.contains_iff_mem.mp member)
  have optional : tag.name ∉ impliedEndNames →
      state.closeOptional.popThroughName tag.name = state.popThroughName tag.name :=
    popThroughName_closeOptional
  unfold State.endInBody
  refine .ite (fun template => absurd (template ▸ by decide) root) fun _ => ?_
  refine .ite (fun closable => ?_) fun _ => ?_
  · have names : ∀ name ∈ closableNames, name ∉ impliedEndNames := by decide
    exact (laid.closeNamed flow boundsScope_of_holder (among closable (by decide))
      (optional (names _ (List.contains_iff_mem.mp closable)))).lands same
  refine .ite (fun _ => laid.closeForm.lands same) fun _ => ?_
  refine .ite (fun _ => (laid.endParagraph flow).lands same) fun _ => ?_
  refine .ite (fun item => ?_) fun _ => ?_
  · exact (laid.closeNamed flow boundsItem_of_holder (item ▸ by decide)
      (popThroughName_closeOptionalExcept _)).lands same
  refine .ite (fun item => ?_) fun _ => ?_
  · rw [Bool.or_eq_true, decide_eq_true_eq, decide_eq_true_eq] at item
    have plain : tag.name ∉ decisiveNames := by rcases item with dd | dt <;> simp [*] <;> decide
    exact (laid.closeNamed flow boundsScope_of_holder plain
      (popThroughName_closeOptionalExcept _)).lands same
  refine .ite (fun _ => ?_) fun _ => ?_
  · refine .ite (fun found => ?_) fun _ => laid.reaches.lands same
    have apart : ∀ tag : Element, tag.isOneOf impliedEndNames = true → tag.isHeading = false :=
      fun tag implied => Element.isOneOf_disjoint implied (by decide)
    rw [State.closeOptional, popThrough_closeImplied apart]
    refine (laid.popThrough flow boundsScope_of_holder (fun tag holder => ?_) found).lands same
    exact Element.isOneOf_disjoint (Mode.isDecisive_of_isHolder holder) (by decide)
  refine .ite (fun formatting => ?_) fun _ => ?_
  · have known : tag.name ∈ reopenedNames := by
      simpa [reopenedNames, or_assoc] using formatting
    exact (laid.closeFormatting flow known (whole known)).lands same
  refine .ite (fun embedded => ?_) fun _ => ?_
  · have plain := among embedded (by decide)
    have names : ∀ name ∈ ["applet", "marquee", "object"], name ∉ impliedEndNames := by decide
    refine .ite (fun found => ?_) fun _ => laid.reaches.lands same
    rw [optional (names _ (List.contains_iff_mem.mp embedded))]
    have closed := laid.popThroughName flow boundsScope_of_holder plain found
    exact (closed.after closed.laid.clearFormatting).lands same
  refine .ite (fun br => ?_) fun _ => (laid.closeOrdinary flow other).lands same
  have reopened := laid.reopenFormatting flow
  have closed := reopened.laid.insertClosed
    (show (Element.ofName tag.name []).isHtml "template" = false by rw [br]; decide)
  exact (reopened.after (closed.quiet (by rw [br]; decide))).refuseFrames.lands same

/-- The rules for ordinary content. -/
theorem inBody (same : state.mode = mode) {token : Token}
    (starts : ∀ tag, token = .startTag tag → state.startFitsFlow tag = true)
    (ends : ∀ tag, token = .endTag tag → tag.name ∉ rootNames ∧
      (tag.name ∈ reopenedNames → state.splits tag.name = false) ∧
      ∀ holder, mode.isHolder holder = true → holder.isHtml tag.name = false) (attempts : Nat) :
    (state.inBody token).Lands base state token attempts := by
  have reopened := laid.reopenFormatting flow
  cases token with
  | blank content => exact (reopened.after (reopened.laid.insertBlank content)).lands same
  | text content =>
      have refused := reopened.refuseFrames
      exact (refused.after (refused.laid.insertText content)).lands same
  | comment content => exact (laid.insertComment content).lands same
  | startTag tag => exact laid.startInBody flow same (starts tag rfl)
  | endTag tag =>
      obtain ⟨root, whole, other⟩ := ends tag rfl
      have notBody : tag.name ≠ "body" := fun body => root (body ▸ by decide)
      have notRoot : tag.name ≠ "html" := fun html => root (html ▸ by decide)
      rw [State.inBody, if_neg notBody, if_neg notRoot]
      exact laid.endInBody flow same root whole other
  | finish =>
      rw [State.inBody, State.finishInBody, laid.templates]
      exact laid.reaches.lands same
  | null | doctype => exact laid.reaches.lands same

end Flow

end Laid

end State

end Bindery.Html
