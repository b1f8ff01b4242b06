import Bindery.Html.Construction.Body
import Bindery.Html.Writer

/-!
# Elements that keep their place

Most start tags close nothing where their elements may stand, and the end tag of the
innermost element closes that element and no other.
-/

set_option autoImplicit false

namespace Bindery.Html

/-! ## Where elements may stand -/

/-- The names that have rules of their own. -/
def ruledNames : List String :=
  ["html", "body", "head", "frameset", "form", "plaintext", "button", "a", "nobr", "applet",
    "marquee", "object", "table", "image", "area", "br", "embed", "img", "keygen", "wbr", "input",
    "param", "source", "track", "hr", "textarea", "xmp", "iframe", "noembed", "noscript", "select",
    "optgroup", "option", "rb", "rtc", "rp", "rt", "math", "svg", "caption", "col", "colgroup",
    "frame", "tbody", "td", "tfoot", "th", "thead", "tr", "pre", "listing", "li", "dd", "dt"] ++
    State.sharedStarts ++ blockNames ++ headingNames ++ formattingNames

/-- The items of lists, and the lists that they stand in. -/
def itemParents : List (String × String) :=
  [("li", "ul"), ("li", "ol"), ("dd", "dl"), ("dt", "dl")]

/-- The elements without content that stand in a text. -/
def emptyNames : List String := ["area", "br", "embed", "img", "keygen", "wbr"]

/-- An element of the name may stand inside open elements of these names, the innermost first. -/
inductive Stands (path : List String) : String → Prop where
  | block {name} : name ∈ "pre" :: blockNames → "p" ∉ path → Stands path name
  | heading {name} :
      name ∈ headingNames → "p" ∉ path → (∀ parent ∈ path.head?, parent ∉ headingNames) →
      Stands path name
  | item {name parent} :
      (name, parent) ∈ itemParents → "p" ∉ path → path.head? = some parent → Stands path name
  | formatting {name} : name ∈ "a" :: formattingNames → name ∉ path → Stands path name
  | plain {name} : name ∉ ruledNames → Stands path name

theorem stands_iff {path : List String} {name : String} :
    Stands path name ↔
      name ∈ "pre" :: blockNames ∧ "p" ∉ path ∨
      (name ∈ headingNames ∧ "p" ∉ path ∧ ∀ parent ∈ path.head?, parent ∉ headingNames) ∨
      ("p" ∉ path ∧ ∃ parent ∈ path.head?, (name, parent) ∈ itemParents) ∨
      (name ∈ "a" :: formattingNames ∧ name ∉ path) ∨ name ∉ ruledNames := by
  constructor
  · intro stands
    cases stands with
    | block member outside => exact .inl ⟨member, outside⟩
    | heading member outside other => exact .inr (.inl ⟨member, outside, other⟩)
    | @item parent member outside inner =>
        exact .inr (.inr (.inl ⟨outside, parent, inner, member⟩))
    | formatting member outside => exact .inr (.inr (.inr (.inl ⟨member, outside⟩)))
    | plain unruled => exact .inr (.inr (.inr (.inr unruled)))
  · rintro (⟨member, outside⟩ | ⟨member, outside, other⟩ | ⟨outside, parent, inner, member⟩ |
      ⟨member, outside⟩ | unruled)
    · exact .block member outside
    · exact .heading member outside other
    · exact .item member outside inner
    · exact .formatting member outside
    · exact .plain unruled

instance (path : List String) (name : String) : Decidable (Stands path name) :=
  decidable_of_iff _ stands_iff.symm

/-- The names whose start tags mean something before the body. -/
def earlyNames : List String :=
  ["html", "head", "body", "frameset", "noscript"] ++ State.sharedStarts

theorem Stands.name_ne {path : List String} {name : String} (stands : Stands path name) :
    name ∉ earlyNames ∧ name ∉ verbatimNames ∧ name ∉ voidNames := by
  have others : ∀ name ∈ "pre" :: blockNames ++ headingNames ++ itemParents.map Prod.fst ++
      "a" :: formattingNames, name ∉ earlyNames ∧ name ∉ verbatimNames ∧ name ∉ voidNames := by
    decide
  simp only [List.forall_mem_append] at others
  obtain ⟨⟨⟨blocks, headings⟩, items⟩, formatting⟩ := others
  cases stands with
  | block member => exact blocks _ member
  | heading member => exact headings _ member
  | item member => exact items _ (List.mem_map_of_mem member)
  | formatting member => exact formatting _ member
  | plain unruled =>
      have ruled : ∀ name ∈ earlyNames ++ verbatimNames ++ voidNames, name ∈ ruledNames := by decide
      simp only [List.forall_mem_append] at ruled
      exact ⟨fun member => unruled (ruled.1.1 _ member), fun member => unruled (ruled.1.2 _ member),
        fun member => unruled (ruled.2 _ member)⟩

/-! ## Formatting elements -/

namespace State

theorem mem_recentFormatting {entries : List Formatting} {node : Nat} {tag : Tag}
    (member : (node, tag) ∈ recentFormatting.go entries) : .element node tag ∈ entries := by
  induction entries with
  | nil => cases member
  | cons entry entries ih =>
      cases entry with
      | marker => cases member
      | element other own =>
          rw [recentFormatting.go, List.mem_cons] at member
          rcases member with same | member
          · cases same
            exact List.mem_cons_self
          · exact List.mem_cons_of_mem _ (ih member)

/-! ## The innermost open element -/

section Current

variable {state : State} {node : Nat} {outer : List Nat} {name : String}
  {attributes : List (String × String)} (opened : state.opened = node :: outer)
  (named : state.arena.element? node = some (.ofName name attributes))

include opened named

theorem current_of_opened : state.current = .ofName name attributes := by
  rw [current, opened]
  simp [Arena.element, named]

theorem popThroughName_current :
    state.popThroughName name = { state with opened := outer } := by
  have wanted : (state.element node).isHtml name = true := by
    simp [element, Arena.element, named, Element.isHtml, Element.ofName]
  simp [popThroughName, popThrough, opened, wanted]

theorem closeImplied_current {names : List String} (other : name ∉ names) :
    state.closeImplied names = state := by
  have kept : (state.element node).isOneOf names = false := by
    simp [element, Arena.element, named, Element.isOneOf, Element.ofName, other]
  rw [closeImplied, opened, List.dropWhile_cons, kept]
  simp [← opened]

theorem nameInScope_current (bounds : Element → Bool) : state.nameInScope bounds name = true := by
  simp [nameInScope, inScope, opened, findsOpen, element, Arena.element, named, Element.isHtml,
    Element.ofName]

end Current

/-! ## The rules for a start tag -/

section Start

variable {state : State} {tag : Tag}

theorem startInBody_plain (other : tag.name ∉ ruledNames) :
    state.startInBody tag = state.reopenFormatting.openTag tag := by
  simp only [ruledNames, sharedStarts, blockNames, headingNames, formattingNames,
    List.cons_append, List.nil_append, List.mem_cons, List.not_mem_nil, or_false, not_or] at other
  simp [startInBody, sharedStarts, blockNames, headingNames, formattingNames, other]

theorem startInBody_block (block : tag.name ∈ blockNames) :
    state.startInBody tag = state.openBlock tag := by
  have others : ∀ name ∈ blockNames, name ∉ sharedStarts ∧ name ≠ "html" ∧ name ≠ "body" ∧
      name ≠ "frameset" := by decide
  simp [startInBody, others _ block, block]

theorem startInBody_heading (heading : tag.name ∈ headingNames) :
    state.startInBody tag = state.openHeading tag := by
  have others : ∀ name ∈ headingNames, name ∉ sharedStarts ∧ name ∉ blockNames ∧ name ≠ "html" ∧
      name ≠ "body" ∧ name ≠ "frameset" := by decide
  simp [startInBody, others _ heading, heading]

theorem startInBody_formatting (formatting : tag.name ∈ formattingNames) :
    state.startInBody tag = state.reopenFormatting.openFormatting tag := by
  have others : ∀ name ∈ formattingNames, name ∉ sharedStarts ∧ name ∉ blockNames ∧
      name ∉ headingNames ∧ name ∉ ["html", "body", "frameset", "pre", "listing", "form", "li",
        "dd", "dt", "plaintext", "button", "a"] := by decide
  have none := others _ formatting
  simp only [List.mem_cons, List.not_mem_nil, or_false, not_or] at none
  simp [startInBody, none, formatting]

theorem startInBody_link (link : tag.name = "a") : state.startInBody tag = state.openLink tag := by
  obtain ⟨name, attributes, closing⟩ := tag
  cases link
  rfl

theorem startInBody_preformatted (pre : tag.name = "pre") :
    state.startInBody tag = { (state.openBlock tag).refuseFrames with skipsNewline := true } := by
  obtain ⟨name, attributes, closing⟩ := tag
  cases pre
  rfl

theorem startInBody_item (item : tag.name ∈ ["li", "dd", "dt"]) :
    state.startInBody tag = state.openItem tag := by
  obtain ⟨name, attributes, closing⟩ := tag
  simp only [List.mem_cons, List.not_mem_nil, or_false] at item
  rcases item with rfl | rfl | rfl <;> rfl

theorem startInBody_empty (empty : tag.name ∈ emptyNames) :
    state.startInBody tag = (state.reopenFormatting.insertClosed tag.element).refuseFrames := by
  obtain ⟨name, attributes, closing⟩ := tag
  simp only [emptyNames, List.mem_cons, List.not_mem_nil, or_false] at empty
  rcases empty with rfl | rfl | rfl | rfl | rfl | rfl <;> rfl

end Start

/-! ## The rules for the end tag of the innermost element -/

section End

variable {state : State} {node : Nat} {outer : List Nat} {name : String}
  {attributes : List (String × String)} (opened : state.opened = node :: outer)
  (named : state.arena.element? node = some (.ofName name attributes))

include opened named

theorem endInBody_closable (closable : name ∈ closableNames) :
    state.endInBody ⟨name, [], false⟩ = { state with opened := outer } := by
  have others : ∀ name ∈ closableNames, name ≠ "template" ∧ name ∉ impliedEndNames := by decide
  obtain ⟨template, unimplied⟩ := others _ closable
  simp only [endInBody, template, closable, List.contains_iff_mem, if_true, if_false,
    nameInScope_current opened named, closeOptional, closeImplied_current opened named unimplied,
    popThroughName_current opened named]

theorem endInBody_paragraph (paragraph : name = "p") :
    state.endInBody ⟨name, [], false⟩ = { state with opened := outer } := by
  subst paragraph
  have ended : state.endInBody ⟨"p", [], false⟩ =
      (if state.nameInScope Element.boundsButton "p" then state
        else state.openName "p").closeParagraph := rfl
  rw [ended, nameInScope_current opened named, if_pos rfl, closeParagraph, closeOptionalExcept,
    closeImplied_current opened named (by decide), popThroughName_current opened named]

theorem endInBody_item (item : name ∈ ["li", "dd", "dt"]) :
    state.endInBody ⟨name, [], false⟩ = { state with opened := outer } := by
  have unimplied : name ∉ impliedEndNames.filter (· ≠ name) := by simp
  have reached := nameInScope_current opened named
  have closed : state.closeOptionalExcept name = state :=
    closeImplied_current opened named unimplied
  have popped := popThroughName_current opened named
  simp only [List.mem_cons, List.not_mem_nil, or_false] at item
  rcases item with rfl | rfl | rfl <;>
    simp [endInBody, reached, closed, popped, closableNames]

theorem endInBody_heading (heading : name ∈ headingNames) :
    state.endInBody ⟨name, [], false⟩ = { state with opened := outer } := by
  have others : ∀ name ∈ headingNames, name ∉ impliedEndNames ∧ name ∉ closableNames ∧
      name ∉ ["template", "form", "p", "li", "dd", "dt"] := by decide
  obtain ⟨unimplied, unclosable, plain⟩ := others _ heading
  simp only [List.mem_cons, List.not_mem_nil, or_false, not_or] at plain
  have isHeading : (state.element node).isHeading = true := by
    simp [element, Arena.element, named, Element.isHeading, Element.isOneOf, Element.ofName,
      heading]
  have reached : state.inScope Element.boundsScope Element.isHeading = true := by
    simp [inScope, opened, findsOpen, isHeading]
  have popped : state.popThrough Element.isHeading = { state with opened := outer } := by
    simp [popThrough, opened, isHeading]
  simp [endInBody, plain, unclosable, heading, reached, closeOptional,
    closeImplied_current opened named unimplied, popped]

theorem closeOrdinary_current : state.closeOrdinary name = { state with opened := outer } := by
  have reaches : closeOrdinary.reaches state name state.opened = true := by
    simp [opened, closeOrdinary.reaches, element, Arena.element, named, Element.isHtml,
      Element.ofName]
  rw [closeOrdinary, reaches, if_pos rfl, popThroughName_current opened named]

theorem endInBody_plain (plain : name ∉ ruledNames) :
    state.endInBody ⟨name, [], false⟩ = { state with opened := outer } := by
  have closed := closeOrdinary_current opened named
  have closable : ∀ name ∈ closableNames, name ∈ ruledNames := by decide
  have unclosable : name ∉ closableNames := fun member => plain (closable _ member)
  simp only [ruledNames, sharedStarts, blockNames, headingNames, formattingNames,
    List.cons_append, List.nil_append, List.mem_cons, List.not_mem_nil, or_false, not_or] at plain
  simp [endInBody, headingNames, formattingNames, unclosable, plain, closed]

end End

theorem endInBody_formatting {state : State} {name : String}
    (formatting : name ∈ "a" :: formattingNames) :
    state.endInBody ⟨name, [], false⟩ = state.closeFormatting name := by
  have others : ∀ name ∈ "a" :: formattingNames, name ∉ headingNames ∧ name ∉ closableNames ∧
      name ∉ ["template", "form", "p", "li", "dd", "dt"] := by decide
  obtain ⟨heading, unclosable, plain⟩ := others _ formatting
  simp only [List.mem_cons, List.not_mem_nil, or_false, not_or] at plain
  rw [List.mem_cons] at formatting
  rcases formatting with rfl | formatting <;> simp_all [endInBody]

end State

end Bindery.Html
