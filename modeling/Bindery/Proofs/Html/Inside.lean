import Bindery.Proofs.Html.Growth
import Bindery.Proofs.Html.Reading
import Bindery.Proofs.Html.Rules
import Mathlib.Data.List.Forall2

/-!
# Inside a body

Elements that keep their place leave a state from which the rest can be told by the
names of the open elements. Start tags add an element and open it, end tags close it,
and text adds no element.
-/

set_option autoImplicit false

namespace Bindery.Html

/-- The entries of formatting elements are those of open elements. -/
def FormattingOpen (path : List String) (above : List Nat) (formatting : List Formatting) : Prop :=
  ∀ entry ∈ formatting, ∃ node tag, entry = .element node tag ∧ node ∈ above ∧ tag.name ∈ path

/-- The state inside open elements of these names, with the elements read so far. The open
elements and those that formatting goes back to are listed from the innermost out. -/
structure Inside (path : List String) (above : List Nat) (formatting : List Formatting)
    (elements : List Element) (state : State) : Prop where
  mode : state.mode = .inBody
  data : state.reading = .data
  templates : state.templateModes = []
  fostering : state.fostering = false
  opened : state.opened = above ++ [bodyNode, 1]
  named : List.Forall₂ (fun node name => bodyNode < node ∧ name ≠ "template" ∧
    ∃ attributes, state.arena.element? node = some (.ofName name attributes)) above path
  distinct : above.Nodup
  kept : state.formatting = formatting
  settled : FormattingOpen path above formatting
  holds : state.arena.BodyHolds elements

namespace Inside

variable {path : List String} {above : List Nat} {formatting : List Formatting}
  {elements : List Element} {state : State}

/-- The innermost open element is an HTML element of the body. -/
theorem exists_current (inside : Inside path above formatting elements state) :
    ∃ node outer attributes, state.opened = node :: outer ∧ bodyNode ≤ node ∧
      path.head?.getD "body" ≠ "template" ∧
      state.arena.element? node = some (.ofName (path.head?.getD "body") attributes) := by
  have opened := inside.opened
  cases inside.named with
  | nil => exact ⟨bodyNode, [1], [], opened, Nat.le_refl _, by decide, inside.holds.body⟩
  | cons first others =>
      obtain ⟨behind, other, attributes, found⟩ := first
      exact ⟨_, _, attributes, opened, Nat.le_of_lt behind, other, found⟩

theorem isForeign (inside : Inside path above formatting elements state) (token : Token) :
    state.isForeign token = false := by
  obtain ⟨node, outer, attributes, opened, -, -, named⟩ := inside.exists_current
  simp [State.isForeign, State.current_of_opened opened named, Element.ofName]

theorem step (inside : Inside path above formatting elements state) (token : Token) :
    state.step token = state.inBody token := by
  rw [State.step, inside.isForeign, if_neg (by decide), State.stepIn, inside.mode]

theorem settle (inside : Inside path above formatting elements state) {token : Token}
    {next : State} (done : state.inBody token = .done next) :
    State.settle state.attempts state token = next := by
  rw [State.attempts, Nat.add_comm, Nat.add_succ, State.settle, inside.step, done]

theorem withoutSkip (inside : Inside path above formatting elements state) :
    Inside path above formatting elements { state with skipsNewline := false } := { inside with }

/-- A token that is no blank is read by the rules of the body. -/
theorem take_of_done (inside : Inside path above formatting elements state) {token : Token}
    {next : State} (whole : State.withoutNewline token = some token)
    (declared : ∀ declaration, token ≠ .doctype declaration)
    (done : { state with skipsNewline := false }.inBody token = .done next) :
    state.take token = next := by
  have kept : (if state.skipsNewline = true then State.withoutNewline token else some token) =
      some token := by
    split
    · exact whole
    · rfl
  rw [State.take, kept]
  cases token with
  | doctype declaration => exact absurd rfl (declared declaration)
  | _ => exact inside.withoutSkip.settle done

theorem take_startTag (inside : Inside path above formatting elements state) (tag : Tag) :
    state.take (.startTag tag) = { state with skipsNewline := false }.startInBody tag :=
  inside.take_of_done rfl nofun rfl

theorem take_endTag (inside : Inside path above formatting elements state) {name : String}
    (body : name ≠ "body") (root : name ≠ "html") :
    state.take (.endTag ⟨name, [], false⟩) =
      { state with skipsNewline := false }.endInBody ⟨name, [], false⟩ := by
  refine inside.take_of_done rfl nofun ?_
  rw [State.inBody, if_neg body, if_neg root]

/-- New content goes into the innermost open element. -/
theorem exists_place (inside : Inside path above formatting elements state) :
    ∃ node tag, state.place = .inside node ∧ bodyNode ≤ node ∧
      state.arena.element? node = some tag := by
  obtain ⟨node, outer, attributes, opened, below, other, named⟩ := inside.exists_current
  refine ⟨node, _, ?_, below, named⟩
  simp [State.place, State.placeIn, State.current?, State.insideOf, State.element, Arena.element,
    opened, named, inside.fostering, Element.isHtml, Element.ofName, other]

/-- Elements that are added leave those that are open as they are. -/
theorem named_of_keeps (inside : Inside path above formatting elements state) {arena : Arena}
    (keeps : ∀ node tag, state.arena.element? node = some tag → arena.element? node = some tag) :
    List.Forall₂ (fun node name => bodyNode < node ∧ name ≠ "template" ∧
      ∃ attributes, arena.element? node = some (.ofName name attributes)) above path := by
  refine inside.named.imp ?_
  rintro node name ⟨behind, other, attributes, found⟩
  exact ⟨behind, other, attributes, keeps node _ found⟩

theorem exists_name (inside : Inside path above formatting elements state) {node : Nat}
    (member : node ∈ above) :
    ∃ name ∈ path, ∃ attributes, state.arena.element? node = some (.ofName name attributes) := by
  obtain ⟨index, small, rfl⟩ := List.getElem_of_mem member
  obtain ⟨-, -, found⟩ := List.Forall₂.get inside.named small (inside.named.length_eq ▸ small)
  exact ⟨_, List.getElem_mem _, found⟩

theorem lt_size (inside : Inside path above formatting elements state) :
    ∀ node ∈ above, node < state.arena.slots.size := by
  intro node member
  obtain ⟨name, -, attributes, found⟩ := inside.exists_name member
  exact Arena.lt_size_of_element? found

theorem insertText (inside : Inside path above formatting elements state) (content : String) :
    Inside path above formatting elements (state.insertText content) := by
  obtain ⟨node, tag, place, below, found⟩ := inside.exists_place
  have inserted : state.insertText content =
      { state with arena := state.arena.appendText node content } := by
    rw [State.insertText, place]
  rw [inserted]
  exact { inside with
    named := inside.named_of_keeps fun other tag =>
      Arena.element?_appendText_of_some (Arena.lt_size_of_element? found) content
    holds := inside.holds.appendText below found content }

/-- A new element becomes the last child of the innermost open one. -/
theorem exists_create (inside : Inside path above formatting elements state) (tag : Tag)
    (other : tag.name ≠ "template") :
    ∃ arena,
      Inside path above formatting (elements ++ [tag.element]) { state with arena := arena } ∧
      arena.element? state.arena.slots.size = some tag.element ∧
      state.insertClosed tag.element = { state with arena := arena } ∧
      state.insertOpen tag.element =
        ({ state with arena := arena, opened := state.arena.slots.size :: state.opened },
          state.arena.slots.size) := by
  obtain ⟨node, parent, place, below, found⟩ := inside.exists_place
  have small := Arena.lt_size_of_element? found
  have created : state.create tag.element =
      ({ state with arena := (state.arena.add (.element tag.element)).1 },
        state.arena.slots.size) := by
    simp [State.create, Arena.addElement, Element.isHtml, Tag.element, Element.ofName, other,
      Arena.add]
  refine ⟨state.arena.grow node (.element tag.element), ?_, ?_, ?_, ?_⟩
  · exact { inside with
      named := inside.named_of_keeps fun other tag => Arena.element?_grow_of_some small _
      holds := inside.holds.grow below found (.element tag.element) }
  · rw [Arena.element?_grow small, if_pos rfl]
    rfl
  · rw [State.insertClosed, place, created]
    rfl
  · rw [State.insertOpen, place, created]
    rfl

theorem insertClosed (inside : Inside path above formatting elements state) (tag : Tag)
    (other : tag.name ≠ "template") :
    Inside path above formatting (elements ++ [tag.element]) (state.insertClosed tag.element) := by
  obtain ⟨arena, grown, -, inserted, -⟩ := inside.exists_create tag other
  rw [inserted]
  exact grown

theorem insertOpen (inside : Inside path above formatting elements state) (tag : Tag)
    (other : tag.name ≠ "template") :
    ∃ next fresh, state.insertOpen tag.element = (next, fresh) ∧
      Inside (tag.name :: path) (fresh :: above) formatting (elements ++ [tag.element]) next := by
  obtain ⟨arena, grown, own, -, inserted⟩ := inside.exists_create tag other
  refine ⟨_, _, inserted, ?_⟩
  exact { grown with
    opened := by simp [inside.opened]
    named := .cons ⟨inside.holds.size_gt, other, tag.attributes, own⟩ grown.named
    distinct := List.nodup_cons.mpr
      ⟨fun member => absurd (inside.lt_size _ member) (Nat.lt_irrefl _), inside.distinct⟩
    settled := by
      intro entry member
      obtain ⟨node, tag, rfl, open_, there⟩ := inside.settled entry member
      exact ⟨node, tag, rfl, List.mem_cons_of_mem _ open_, List.mem_cons_of_mem _ there⟩ }

theorem openTag (inside : Inside path above formatting elements state) (tag : Tag)
    (other : tag.name ≠ "template") :
    ∃ fresh, Inside (tag.name :: path) (fresh :: above) formatting (elements ++ [tag.element])
      (state.openTag tag) := by
  obtain ⟨next, fresh, inserted, opened⟩ := inside.insertOpen tag other
  refine ⟨fresh, ?_⟩
  rw [State.openTag, inserted]
  exact opened

/-! ### Start tags -/

theorem reopenFormatting (inside : Inside path above formatting elements state) :
    state.reopenFormatting = state := by
  have settled := inside.settled
  rw [← inside.kept] at settled
  unfold State.reopenFormatting
  cases entries : state.formatting with
  | nil => rfl
  | cons entry others =>
      obtain ⟨node, tag, rfl, member, -⟩ := settled entry (entries ▸ List.mem_cons_self)
      have opened : node ∈ state.opened := inside.opened ▸ List.mem_append_left _ member
      simp [State.settled, opened]

/-- No element is found whose name no open element has. -/
theorem nameInScope_eq_false (inside : Inside path above formatting elements state)
    (bounds : Element → Bool) {name : String} (closed : name ∉ path) (body : name ≠ "body")
    (root : name ≠ "html") : state.nameInScope bounds name = false := by
  have other : ∀ node ∈ state.opened, (state.element node).isHtml name = false := by
    intro node member
    rw [inside.opened, List.mem_append, List.mem_cons, List.mem_singleton] at member
    obtain ⟨found, attributes, named, different⟩ : ∃ found attributes,
        state.arena.element? node = some (.ofName found attributes) ∧ found ≠ name := by
      rcases member with member | rfl | rfl
      · obtain ⟨found, listed, attributes, named⟩ := inside.exists_name member
        exact ⟨found, attributes, named, ne_of_mem_of_not_mem listed closed⟩
      · exact ⟨"body", [], inside.holds.body, body.symm⟩
      · exact ⟨"html", [], (inside.holds.before 1 (by decide)).1, root.symm⟩
    simp [State.element, Arena.element, named, Element.isHtml, Element.ofName, different]
  rw [State.nameInScope, State.inScope]
  generalize state.opened = nodes at other
  induction nodes with
  | nil => rfl
  | cons node nodes ih =>
      obtain ⟨first, others⟩ := List.forall_mem_cons.mp other
      simp [State.findsOpen, first, ih others]

theorem closeParagraphInScope (inside : Inside path above formatting elements state)
    (closed : "p" ∉ path) : state.closeParagraphInScope = state := by
  rw [State.closeParagraphInScope,
    inside.nameInScope_eq_false _ closed (by decide) (by decide), if_neg (by decide)]

theorem openBlock (inside : Inside path above formatting elements state) {tag : Tag}
    (closed : "p" ∉ path) : state.openBlock tag = state.openTag tag := by
  rw [State.openBlock, inside.closeParagraphInScope closed]

theorem openHeading (inside : Inside path above formatting elements state) {tag : Tag}
    (closed : "p" ∉ path) (apart : ∀ parent ∈ path.head?, parent ∉ headingNames) :
    state.openHeading tag = state.openTag tag := by
  obtain ⟨node, outer, attributes, opened, -, -, named⟩ := inside.exists_current
  have other : path.head?.getD "body" ∉ headingNames := by
    cases path with
    | nil => decide
    | cons parent path => exact apart parent rfl
  have plain : state.current.isHeading = false := by
    simp [State.current_of_opened opened named, Element.isHeading, Element.isOneOf,
      Element.ofName, other]
  rw [State.openHeading, inside.closeParagraphInScope closed]
  simp [plain]

theorem openItem (inside : Inside path above formatting elements state) {tag : Tag}
    {parent : String} (item : (tag.name, parent) ∈ itemParents) (closed : "p" ∉ path)
    (first : path.head? = some parent) :
    state.openItem tag = state.refuseFrames.openTag tag := by
  obtain ⟨node, outer, attributes, opened, -, -, named⟩ := inside.exists_current
  have parents : ∀ pair ∈ itemParents, pair.2 ∈ specialNames ∧
      pair.2 ∉ ["li", "dd", "dt", "address", "div", "p"] := by decide
  obtain ⟨special, other⟩ := parents _ item
  simp only [List.mem_cons, List.not_mem_nil, or_false, not_or] at other
  rw [first, Option.getD_some] at named
  have bounded : ∀ names, parent ∉ names →
      state.refuseFrames.openItem? names state.opened = none := by
    intro names apart
    simp [opened, State.openItem?, State.refuseFrames, State.element, Arena.element, named,
      Element.isOneOf, Element.isSpecial, Element.ofName, apart, special, other]
  have none : state.refuseFrames.openItem? (if tag.name = "li" then ["li"] else ["dd", "dt"])
      state.refuseFrames.opened = none := by
    split
    · exact bounded _ (by simp [other])
    · exact bounded _ (by simp [other])
  have refused : Inside path above formatting elements state.refuseFrames := { inside with }
  rw [State.openItem]
  simp only [none]
  exact refused.openBlock closed

theorem openFormatting (inside : Inside path above formatting elements state) {tag : Tag}
    (fresh : tag.name ∉ path) :
    state.openFormatting tag =
      { (state.insertOpen tag.element).1 with
        formatting := .element (state.insertOpen tag.element).2 tag ::
          (state.insertOpen tag.element).1.formatting } := by
  have none : ∀ item ∈ state.recentFormatting, ¬ tag.agrees item.2 = true := by
    rintro ⟨node, other⟩ member
    have listed := State.mem_recentFormatting member
    rw [inside.kept] at listed
    obtain ⟨_, _, same, -, there⟩ := inside.settled _ listed
    cases same
    have different : tag.name ≠ other.name := (ne_of_mem_of_not_mem there fresh).symm
    simp [Tag.agrees, different]
  rw [State.openFormatting, List.filter_eq_nil_iff.mpr none]
  rfl

theorem openLink (inside : Inside path above formatting elements state) {tag : Tag}
    (outside : "a" ∉ path) : state.openLink tag = state.openFormatting tag := by
  have none : ∀ item ∈ state.recentFormatting, ¬ (state.element item.1).isHtml "a" = true := by
    rintro ⟨node, other⟩ member
    have listed := State.mem_recentFormatting member
    rw [inside.kept] at listed
    obtain ⟨_, _, same, opened, -⟩ := inside.settled _ listed
    cases same
    obtain ⟨name, there, attributes, named⟩ := inside.exists_name opened
    have different : name ≠ "a" := ne_of_mem_of_not_mem there outside
    simp [State.element, Arena.element, named, Element.isHtml, Element.ofName, different]
  rw [State.openLink]
  simp only [List.find?_eq_none.mpr none, inside.reopenFormatting]

/-- The entry that a start tag leaves in the list of formatting elements. -/
def entries (tag : Tag) (node : Nat) : List Formatting :=
  if tag.name ∈ "a" :: formattingNames then [.element node tag] else []

theorem openTag_of_plain (inside : Inside path above formatting elements state) {tag : Tag}
    (other : tag.name ∉ "template" :: "a" :: formattingNames) :
    ∃ fresh, Inside (tag.name :: path) (fresh :: above) (entries tag fresh ++ formatting)
      (elements ++ [tag.element]) (state.openTag tag) := by
  rw [List.mem_cons, not_or] at other
  obtain ⟨fresh, opened⟩ := inside.openTag tag other.1
  refine ⟨fresh, ?_⟩
  rw [entries, if_neg other.2]
  exact opened

theorem openFormatting_of_fresh (inside : Inside path above formatting elements state) {tag : Tag}
    (member : tag.name ∈ "a" :: formattingNames) (fresh : tag.name ∉ path) :
    ∃ node, Inside (tag.name :: path) (node :: above) (entries tag node ++ formatting)
      (elements ++ [tag.element]) (state.openFormatting tag) := by
  have others : ∀ name ∈ "a" :: formattingNames, name ≠ "template" := by decide
  obtain ⟨next, node, inserted, opened⟩ := inside.insertOpen tag (others _ member)
  refine ⟨node, ?_⟩
  rw [inside.openFormatting fresh, inserted, entries, if_pos member]
  exact { opened with
    kept := congrArg (_ :: ·) opened.kept
    settled := List.forall_mem_cons.mpr
      ⟨⟨node, tag, rfl, List.mem_cons_self, List.mem_cons_self⟩, opened.settled⟩ }

/-- A start tag opens its element and closes none. -/
theorem startInBody (inside : Inside path above formatting elements state) {tag : Tag}
    (stands : Stands path tag.name) :
    ∃ fresh, Inside (tag.name :: path) (fresh :: above) (entries tag fresh ++ formatting)
      (elements ++ [tag.element]) (state.startInBody tag) := by
  cases stands with
  | block member closed =>
      have others : ∀ name ∈ "pre" :: blockNames, name ∉ "template" :: "a" :: formattingNames := by
        decide
      obtain ⟨fresh, opened⟩ := inside.openTag_of_plain (others _ member)
      refine ⟨fresh, ?_⟩
      rcases List.mem_cons.mp member with pre | block
      · rw [State.startInBody_preformatted pre, inside.openBlock closed]
        exact { opened with }
      · rw [State.startInBody_block block, inside.openBlock closed]
        exact opened
  | heading member closed apart =>
      have others : ∀ name ∈ headingNames, name ∉ "template" :: "a" :: formattingNames := by decide
      rw [State.startInBody_heading member, inside.openHeading closed apart]
      exact inside.openTag_of_plain (others _ member)
  | item member closed first =>
      have others : ∀ pair ∈ itemParents, pair.1 ∈ ["li", "dd", "dt"] ∧
          pair.1 ∉ "template" :: "a" :: formattingNames := by decide
      obtain ⟨item, plain⟩ := others _ member
      have refused : Inside path above formatting elements state.refuseFrames := { inside with }
      rw [State.startInBody_item item, inside.openItem member closed first]
      exact refused.openTag_of_plain plain
  | formatting member outside =>
      rcases List.mem_cons.mp member with link | formatting
      · rw [State.startInBody_link link, inside.openLink (link ▸ outside)]
        exact inside.openFormatting_of_fresh member outside
      · rw [State.startInBody_formatting formatting, inside.reopenFormatting]
        exact inside.openFormatting_of_fresh member outside
  | plain unruled =>
      have ruled : ∀ name ∈ "template" :: "a" :: formattingNames, name ∈ ruledNames := by decide
      rw [State.startInBody_plain unruled, inside.reopenFormatting]
      exact inside.openTag_of_plain fun member => unruled (ruled _ member)

theorem startInBody_empty (inside : Inside path above formatting elements state) {tag : Tag}
    (empty : tag.name ∈ emptyNames) :
    Inside path above formatting (elements ++ [tag.element]) (state.startInBody tag) := by
  have others : ∀ name ∈ emptyNames, name ≠ "template" := by decide
  rw [State.startInBody_empty empty, inside.reopenFormatting]
  exact { inside.insertClosed tag (others _ empty) with }

/-! ### End tags -/

theorem closeFormatting {node : Nat} {tag : Tag}
    (inside : Inside (tag.name :: path) (node :: above) (.element node tag :: formatting)
      elements state)
    (settled : FormattingOpen path above formatting) :
    state.closeFormatting tag.name =
      { state with opened := above ++ [bodyNode, 1], formatting := formatting } := by
  have opened : state.opened = node :: (above ++ [bodyNode, 1]) := inside.opened
  have listed : state.isFormatting node = true := by
    simp [State.isFormatting, inside.kept, Formatting.isElement, Formatting.node?]
  have recent : state.recentFormatting = (node, tag) :: State.recentFormatting.go formatting := by
    simp [State.recentFormatting, inside.kept, State.recentFormatting.go]
  have reached : state.findsOpen Element.boundsScope (fun other _ => other == node)
      (node :: (above ++ [bodyNode, 1])) = true := by
    simp [State.findsOpen]
  have dropped : state.formatting.filter (fun entry => !entry.isElement node) = formatting := by
    have others : ∀ entry ∈ formatting, (!entry.isElement node) = true := by
      intro entry member
      obtain ⟨other, own, rfl, there, -⟩ := settled entry member
      have apart : other ≠ node := ne_of_mem_of_not_mem there (List.nodup_cons.mp inside.distinct).1
      simpa [Formatting.isElement, Formatting.node?] using apart
    rw [inside.kept, List.filter_cons_of_neg (by simp [Formatting.isElement, Formatting.node?]),
      List.filter_eq_self.mpr others]
  have once : state.splitOnce tag.name =
      ({ state with opened := above ++ [bodyNode, 1], formatting := formatting }, false) := by
    rw [State.splitOnce, recent]
    simp [opened, reached, State.dropFormatting, dropped]
  rw [State.closeFormatting, opened]
  simp [listed, State.splitRepeatedly, once]

/-- The element that was opened last is closed. -/
theorem leave {name : String} {node : Nat} {entries : List Formatting}
    (inside : Inside (name :: path) (node :: above) entries elements state)
    (settled : FormattingOpen path above formatting) :
    Inside path above formatting elements
      { state with opened := above ++ [bodyNode, 1], formatting := formatting } := by
  obtain ⟨-, named⟩ := List.forall₂_cons.mp inside.named
  exact { inside with
    opened := rfl
    named
    distinct := (List.nodup_cons.mp inside.distinct).2
    kept := rfl
    settled }

/-- An end tag closes the element that was opened last. -/
theorem endInBody {tag : Tag} {node : Nat}
    (inside : Inside (tag.name :: path) (node :: above) (entries tag node ++ formatting) elements
      state)
    (stands : Stands path tag.name) (settled : FormattingOpen path above formatting) :
    Inside path above formatting elements (state.endInBody ⟨tag.name, [], false⟩) := by
  have opened : state.opened = node :: (above ++ [bodyNode, 1]) := inside.opened
  obtain ⟨⟨-, -, attributes, named⟩, -⟩ := List.forall₂_cons.mp inside.named
  have left : tag.name ∉ "a" :: formattingNames →
      Inside path above formatting elements { state with opened := above ++ [bodyNode, 1] } := by
    intro other
    have kept := inside.kept
    rw [entries, if_neg other] at kept
    exact { inside.leave settled with kept := kept }
  cases stands with
  | block member closed =>
      have others : ∀ name ∈ "pre" :: blockNames, name ∉ "a" :: formattingNames ∧
          (name = "p" ∨ name ∈ closableNames) := by decide
      obtain ⟨other, paragraph | closable⟩ := others _ member
      · rw [State.endInBody_paragraph opened named paragraph]
        exact left other
      · rw [State.endInBody_closable opened named closable]
        exact left other
  | heading member closed apart =>
      have others : ∀ name ∈ headingNames, name ∉ "a" :: formattingNames := by decide
      rw [State.endInBody_heading opened named member]
      exact left (others _ member)
  | item member closed first =>
      have others : ∀ pair ∈ itemParents, pair.1 ∈ ["li", "dd", "dt"] ∧
          pair.1 ∉ "a" :: formattingNames := by decide
      obtain ⟨item, other⟩ := others _ member
      rw [State.endInBody_item opened named item]
      exact left other
  | formatting member outside =>
      rw [entries, if_pos member] at inside
      rw [State.endInBody_formatting member, inside.closeFormatting settled]
      exact inside.leave settled
  | plain unruled =>
      have ruled : ∀ name ∈ "a" :: formattingNames, name ∈ ruledNames := by decide
      rw [State.endInBody_plain opened named unruled]
      exact left fun member => unruled (ruled _ member)

/-! ### Text -/

theorem withoutNewline_blank (content : String) :
    State.withoutNewline (.blank content) = none ∨
      ∃ shorter, State.withoutNewline (.blank content) = some (.blank shorter) := by
  rw [State.withoutNewline]
  split
  · exact .inl rfl
  · exact .inr ⟨_, rfl⟩
  · exact .inr ⟨_, rfl⟩

theorem take_blank (inside : Inside path above formatting elements state) (content : String) :
    Inside path above formatting elements (state.take (.blank content)) := by
  have inserts : ∀ content, Inside path above formatting elements
      (State.settle state.attempts { state with skipsNewline := false } (.blank content)) := by
    intro content
    have settled : State.settle state.attempts { state with skipsNewline := false }
        (.blank content) = _ := inside.withoutSkip.settle rfl
    rw [inside.withoutSkip.reopenFormatting] at settled
    exact settled ▸ inside.withoutSkip.insertText content
  unfold State.take
  split
  · rcases withoutNewline_blank content with none | ⟨shorter, some⟩
    · rw [none]
      exact inside.withoutSkip
    · rw [some]
      exact inserts shorter
  · exact inserts content

theorem take_text (inside : Inside path above formatting elements state) (content : String) :
    Inside path above formatting elements (state.take (.text content)) := by
  have taken : state.take (.text content) = _ := inside.take_of_done rfl nofun rfl
  have refused : Inside path above formatting elements
      { state with skipsNewline := false }.refuseFrames := { inside.withoutSkip with }
  rw [taken, inside.withoutSkip.reopenFormatting]
  exact refused.insertText content

theorem take_null (inside : Inside path above formatting elements state) :
    Inside path above formatting elements (state.take .null) := by
  have taken : state.take .null = _ := inside.take_of_done rfl nofun rfl
  exact taken ▸ inside.withoutSkip

theorem take_piece (inside : Inside path above formatting elements state) {run : List Char}
    {token : Token} (piece : TextPiece run token) :
    Inside path above formatting elements (state.take token) := by
  cases piece with
  | null => exact inside.take_null
  | run whole read =>
      unfold textToken? at read
      split at read
      · cases read
      · split at read
        · cases read
          exact inside.take_blank _
        · cases read
          exact inside.take_text _

/-- A text is read up to the next tag. -/
theorem reads_text (inside : Inside path above formatting elements state)
    (text after : List Char) :
    ∃ next, Inside path above formatting elements next ∧
      Reads state (text.flatMap escapeTextChar ++ '<' :: after) next ('<' :: after) :=
  exists_reads_text (fun state _ => Inside path above formatting elements state)
    (fun _ _ inside => inside.data) (fun _ _ _ _ inside piece => inside.take_piece piece)
    [] text after inside

end Inside

/-! ## The beginning of a document -/

/-- The state in which a body has been opened without a tag of its own. -/
def bareState : State :=
  { State.start with
    arena := bareDocument
    mode := .inBody
    opened := [bodyNode, 1]
    head? := some 2
    lenient := true }

theorem inside_bareState : Inside [] [] [] [] bareState where
  mode := rfl
  data := rfl
  templates := rfl
  fostering := rfl
  opened := rfl
  named := .nil
  distinct := List.nodup_nil
  kept := rfl
  settled := nofun
  holds := .bare

namespace State

def beforeRoot : State := { State.start with lenient := true, mode := .beforeHtml }

def inRoot : State := (beforeRoot.openRoot (.ofName "html" [])).withMode .beforeHead

def insideHead : State := inRoot.openHead (.ofName "head" [])

def behindHead : State := insideHead.pop.withMode .afterHead

end State

/-- The first start tag makes the root, the head and the body, one after the other. -/
theorem take_start {tag : Tag} (late : tag.name ∉ earlyNames) :
    State.start.take (.startTag tag) = bareState.startInBody tag := by
  simp only [earlyNames, List.mem_append, List.mem_cons, List.not_mem_nil, or_false, not_or] at late
  obtain ⟨⟨html, head, body, frames, scripts⟩, unshared⟩ := late
  have shared : ¬ State.sharedStarts.contains tag.name = true := by simpa using unshared
  have either : ¬ (tag.name = "noscript" || State.sharedStarts.contains tag.name) = true := by
    simpa [scripts] using unshared
  have start : State.start.step (.startTag tag) = .again .beforeRoot := rfl
  have root : State.beforeRoot.step (.startTag tag) = .again .inRoot := if_neg html
  have opensHead : State.inRoot.step (.startTag tag) = .again .insideHead :=
    (if_neg html).trans (if_neg head)
  have leavesHead : State.insideHead.step (.startTag tag) = .again .behindHead :=
    (if_neg html).trans ((if_neg head).trans (if_neg either))
  have opensBody : State.behindHead.step (.startTag tag) = .again bareState :=
    (if_neg html).trans ((if_neg body).trans ((if_neg frames).trans
      ((if_neg shared).trans (if_neg head))))
  have inside : bareState.step (.startTag tag) = .done (bareState.startInBody tag) := rfl
  have settled : State.start.take (.startTag tag) = State.settle 16 .start (.startTag tag) := rfl
  rw [settled]
  simp only [State.settle, start, root, opensHead, leavesHead, opensBody, inside]

end Bindery.Html
