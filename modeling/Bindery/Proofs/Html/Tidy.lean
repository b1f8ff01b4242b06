import Bindery.Proofs.Html.Attribute
import Bindery.Proofs.Html.Inside
import Bindery.Proofs.Html.Reading

/-!
# Tidy markup is read back

A tag is kept if it is read as it is written. Markup is tidy if each of its elements may stand
where it stands and its tags are kept. Such markup is read back with the same elements.
-/

set_option autoImplicit false

namespace Bindery.Html

/-! ## Tags that are kept -/

structure KeptName (name : String) : Prop where
  plain : isPlainName name = true
  feeds : '\r' ∉ name.toList

structure KeptValue (value : String) : Prop where
  whole : '\x00' ∉ value.toList
  feeds : '\r' ∉ value.toList

structure Attribute.IsKept (item : Attribute) : Prop where
  space : item.space = .none
  name : KeptName item.name
  value : KeptValue item.value

/-- The tags of the element are read as they are written. -/
structure Element.IsKept (element : Element) : Prop where
  space : element.space = .html
  name : KeptName element.name
  attributes : ∀ item ∈ element.attributes, item.IsKept
  distinct : (element.attributes.map (·.name)).Nodup

instance (item : Attribute) : Decidable item.IsKept :=
  decidable_of_iff
    (item.space = .none ∧ (isPlainName item.name = true ∧ '\r' ∉ item.name.toList) ∧
      '\x00' ∉ item.value.toList ∧ '\r' ∉ item.value.toList)
    ⟨fun ⟨space, ⟨plain, feeds⟩, whole, valueFeeds⟩ => ⟨space, ⟨plain, feeds⟩, ⟨whole, valueFeeds⟩⟩,
      fun kept => ⟨kept.space, ⟨kept.name.plain, kept.name.feeds⟩, kept.value.whole,
        kept.value.feeds⟩⟩

instance (element : Element) : Decidable element.IsKept :=
  decidable_of_iff
    (element.space = .html ∧ (isPlainName element.name = true ∧ '\r' ∉ element.name.toList) ∧
      (∀ item ∈ element.attributes, item.IsKept) ∧ (element.attributes.map (·.name)).Nodup)
    ⟨fun ⟨space, ⟨plain, feeds⟩, attributes, distinct⟩ =>
        ⟨space, ⟨plain, feeds⟩, attributes, distinct⟩,
      fun kept => ⟨kept.space, ⟨kept.name.plain, kept.name.feeds⟩, kept.attributes, kept.distinct⟩⟩

theorem KeptValue.keptValue_eq {value : String} (kept : KeptValue value) :
    keptValue value = value := by
  have same : value.toList.map withoutNull = value.toList := by
    refine (List.map_congr_left fun c member => ?_).trans (List.map_id _)
    refine if_neg ?_
    rintro rfl
    exact kept.whole member
  rw [keptValue, same, String.ofList_toList]

namespace Element.IsKept

variable {element : Element}

theorem exists_tag (kept : element.IsKept) :
    ∃ tag : Tag, tag.IsPlain ∧ tag.kept = tag ∧ tag.element = element := by
  obtain ⟨space, name, attributes, distinct⟩ := kept
  refine ⟨⟨element.name, element.attributes.map fun item => (item.name, item.value), false⟩,
    ⟨name.plain, ?plain, ?distinct⟩, ?kept, ?same⟩
  case plain =>
    intro item member
    obtain ⟨source, listed, rfl⟩ := List.mem_map.mp member
    exact (attributes source listed).name.plain
  case distinct => simpa [Function.comp_def] using distinct
  case kept =>
    rw [Tag.kept, List.map_map]
    congr 1
    refine List.map_congr_left fun item member => ?_
    exact congrArg (item.name, ·) (attributes item member).value.keptValue_eq
  case same =>
    rw [Tag.element, Element.ofName, List.map_map, ← space]
    congr 1
    refine (List.map_congr_left fun item member => ?_).trans (List.map_id _)
    exact congrArg (Attribute.mk · item.name item.value) (attributes item member).space.symm

theorem removeAttribute (kept : element.IsKept) (name : String) :
    (element.removeAttribute name).IsKept where
  space := kept.space
  name := kept.name
  attributes item member := kept.attributes item (List.mem_of_mem_filter member)
  distinct := kept.distinct.sublist (List.filter_sublist.map _)

/-- An attribute that is there gets a new value that is kept. -/
theorem setAttribute (kept : element.IsKept) {name value : String}
    (present : ∃ item ∈ element.attributes, item.name = name) (written : KeptValue value) :
    (element.setAttribute name value).IsKept where
  space := kept.space
  name := kept.name
  attributes := by
    have changed : (element.setAttribute name value).attributes =
        element.attributes.modify (Attribute.position name element.attributes)
          ({ · with value := value }) := setAttributeIn_eq_modify present
    intro item member
    rw [changed, List.mem_iff_getElem?] at member
    obtain ⟨index, found⟩ := member
    rw [List.getElem?_modify] at found
    obtain ⟨before, listed, rfl⟩ := Option.map_eq_some_iff.mp found
    have keptBefore := kept.attributes before (List.mem_of_getElem? listed)
    split
    · exact ⟨keptBefore.space, keptBefore.name, written⟩
    · exact keptBefore
  distinct := by
    have names := congrArg (List.map Prod.snd) (map_key_setAttribute value present)
    rw [List.map_map, List.map_map] at names
    exact names ▸ kept.distinct

end Element.IsKept

/-! ## What is written has no carriage returns -/

theorem feed_not_mem_escaped {write : Char → List Char} (escaped : Escapes write)
    {text : List Char} (none : '\r' ∉ text) : '\r' ∉ text.flatMap write := by
  rw [List.mem_flatMap]
  rintro ⟨c, listed, member⟩
  obtain rfl := eq_of_mem_write escaped isOrdinary_carriageReturn (by decide) member
  exact none listed

theorem Attribute.IsKept.feed_not_mem_write {item : Attribute} (kept : item.IsKept) :
    '\r' ∉ item.write.toList := by
  obtain ⟨space, name, value⟩ := item
  obtain ⟨rfl, named, written⟩ := kept
  simp [Attribute.write, Attribute.writtenName, escapeValue, named.feeds,
    feed_not_mem_escaped escapes_value written.feeds]

theorem Element.IsKept.feed_not_mem_startTag {element : Element} (kept : element.IsKept) :
    '\r' ∉ element.startTag.toList := by
  have attributes : ∀ item ∈ element.attributes, '\r' ∉ item.write.toList :=
    fun item listed => (kept.attributes item listed).feed_not_mem_write
  simpa [Element.startTag, kept.name.feeds] using attributes

theorem Element.IsKept.feed_not_mem_endTag {element : Element} (kept : element.IsKept) :
    '\r' ∉ element.endTag.toList := by
  simp [Element.endTag, kept.name.feeds]

/-! ## Tidy markup is read back -/

/-- The elements of a node stand where they may, and their tags are kept. -/
inductive Tidy : List String → Node → Prop where
  | text {path content} : '\r' ∉ content.toList → Tidy path (.text content)
  | empty {path element} :
      element.IsKept → element.name ∈ emptyNames → Tidy path (.element element [])
  | element {path element children} :
      element.IsKept → Stands path element.name →
      (∀ child ∈ children, Tidy (element.name :: path) child) →
      Tidy path (.element element children)

theorem tidy_element_iff {path : List String} {element : Element} {children : List Node} :
    Tidy path (.element element children) ↔
      element.IsKept ∧ (element.name ∈ emptyNames ∧ children = [] ∨
        Stands path element.name ∧ ∀ child ∈ children, Tidy (element.name :: path) child) := by
  constructor
  · intro tidy
    cases tidy with
    | empty kept empty => exact ⟨kept, .inl ⟨empty, rfl⟩⟩
    | element kept stands tidies => exact ⟨kept, .inr ⟨stands, tidies⟩⟩
  · rintro ⟨kept, ⟨empty, rfl⟩ | ⟨stands, tidies⟩⟩
    · exact .empty kept empty
    · exact .element kept stands tidies

mutual

def decideTidy (path : List String) : (node : Node) → Decidable (Tidy path node)
  | .element element children =>
      have := decideTidyAll (element.name :: path) children
      decidable_of_iff _ tidy_element_iff.symm
  | .text content =>
      decidable_of_iff ('\r' ∉ content.toList) ⟨.text, fun | .text feeds => feeds⟩
  | .comment _ => isFalse nofun

def decideTidyAll (path : List String) :
    (nodes : List Node) → Decidable (∀ node ∈ nodes, Tidy path node)
  | [] => isTrue (List.forall_mem_nil _)
  | node :: nodes =>
      have := decideTidy path node
      have := decideTidyAll path nodes
      decidable_of_iff _ List.forall_mem_cons.symm

end

instance (path : List String) (node : Node) : Decidable (Tidy path node) := decideTidy path node

/-- Wherever the node may stand, what is written for it is read as its elements. -/
def ReadsBack (path : List String) (node : Node) : Prop :=
  ∀ above formatting elements state rest, Inside path above formatting elements state →
    ∃ next, Inside path above formatting (elements ++ node.labels) next ∧
      Reads state ((Tree.write .outside node).toList ++ rest) next rest

theorem exists_element {node : Node} (element : node.isElement = true) :
    ∃ tag children, node = .element tag children := by
  cases node with
  | element tag children => exact ⟨tag, children, rfl⟩
  | text content => cases element
  | comment content => cases element

theorem exists_write_element (tag : Element) (children : List Node) :
    ∃ rest, (Tree.write .outside (.element tag children)).toList = '<' :: rest := by
  have opens : ∃ rest, tag.startTag.toList = '<' :: rest := by simp [Element.startTag]
  obtain ⟨rest, opens⟩ := opens
  by_cases void : tag.isVoid = true
  · simp [Tree.write, Surroundings.outside, void, opens]
  · simp [Tree.write, Surroundings.outside, void, opens]

/-- Nodes are read one after the other, up to the next tag. Text joins text before it. -/
theorem reads_nodes {path : List String} {nodes : List Node}
    (tidy : ∀ node ∈ nodes, Tidy path node)
    (each : ∀ node ∈ nodes, node.isElement = true → ReadsBack path node)
    {above : List Nat} {formatting : List Formatting} {elements : List Element} {state : State}
    (inside : Inside path above formatting elements state) (before after : List Char) :
    ∃ next, Inside path above formatting (elements ++ Tree.labelsAll nodes) next ∧
      Reads state
        (before.flatMap escapeTextChar ++ ((Tree.writeAll .outside nodes).toList ++ '<' :: after))
        next ('<' :: after) := by
  -- The texts that have been passed are read at the next tag, all at once: they stand in `before`.
  induction nodes generalizing elements state before with
  | nil =>
      obtain ⟨next, there, reads⟩ := inside.reads_text before after
      exact ⟨next, by simpa [Tree.labelsAll] using there, by simpa [Tree.writeAll] using reads⟩
  | cons node nodes ih =>
      obtain ⟨standing, tidies⟩ := List.forall_mem_cons.mp tidy
      obtain ⟨first, others⟩ := List.forall_mem_cons.mp each
      cases node with
      | text content =>
          obtain ⟨next, there, reads⟩ := ih tidies others inside (before ++ content.toList)
          refine ⟨next, by simpa [Tree.labelsAll, Tree.labels] using there, ?_⟩
          simpa [Tree.writeAll, Tree.write, Surroundings.outside, escapeText] using reads
      | comment content => cases standing
      | element tag children =>
          obtain ⟨tail, written⟩ := exists_write_element tag children
          obtain ⟨middle, between, text⟩ := inside.reads_text before
            (tail ++ ((Tree.writeAll .outside nodes).toList ++ '<' :: after))
          obtain ⟨behind, there, element⟩ := first rfl above formatting elements middle
            ((Tree.writeAll .outside nodes).toList ++ '<' :: after) between
          obtain ⟨next, last, rest⟩ := ih tidies others there []
          rw [written] at element
          refine ⟨next, by simpa [Tree.labelsAll] using last, ?_⟩
          rw [Tree.writeAll, String.toList_append, written]
          simpa using text.trans (element.trans rest)

/-- What is inside an element is read, and its end tag closes it. -/
theorem reads_behind_startTag {path : List String} {tag : Tag} {children : List Node}
    (plain : tag.IsPlain) (stands : Stands path tag.name)
    (tidy : ∀ child ∈ children, Tidy (tag.name :: path) child)
    (each : ∀ child ∈ children, child.isElement = true → ReadsBack (tag.name :: path) child)
    {above : List Nat} {formatting : List Formatting} {elements : List Element} {state : State}
    {fresh : Nat} (settled : FormattingOpen path above formatting)
    (inside : Inside (tag.name :: path) (fresh :: above) (Inside.entries tag fresh ++ formatting)
      elements state) (rest : List Char) :
    ∃ next, Inside path above formatting (elements ++ Tree.labelsAll children) next ∧
      Reads state ((Tree.writeAll .outside children).toList ++ (tag.element.endTag.toList ++ rest))
        next rest := by
  obtain ⟨early, -, -⟩ := stands.name_ne
  simp only [earlyNames, List.mem_append, List.mem_cons, not_or] at early
  obtain ⟨after, ends⟩ : ∃ after, tag.element.endTag.toList ++ rest = '<' :: after := by
    simp [Element.endTag]
  obtain ⟨middle, within, content⟩ := reads_nodes tidy each inside [] after
  have closes := Reads.endTag plain.name within.data rest
  rw [within.take_endTag early.1.2.2.1 early.1.1, ends] at closes
  rw [ends]
  exact ⟨_, within.withoutSkip.endInBody stands settled, content.trans closes⟩

theorem Stands.writes {path : List String} {element : Element} (stands : Stands path element.name)
    (children : List Node) :
    Tree.write .outside (.element element children) =
      element.startTag ++ Tree.writeAll .outside children ++ element.endTag := by
  obtain ⟨-, verbatim, void⟩ := stands.name_ne
  have escapes : element.isVerbatim = false := by simp [Element.isVerbatim, verbatim]
  have closes : element.isVoid = false := by simp [Element.isVoid, void]
  simp [Tree.write, Surroundings.outside, escapes, closes]

theorem writes_empty {element : Element} (kept : element.IsKept)
    (empty : element.name ∈ emptyNames) :
    Tree.write .outside (.element element []) = element.startTag := by
  have others : ∀ name ∈ emptyNames, name ∈ voidNames := by decide
  have void : element.isVoid = true := by simp [Element.isVoid, kept.space, others _ empty]
  simp [Tree.write, Tree.writeAll, Surroundings.outside, void]

/-- Tidy elements are read as they are written. -/
theorem Tidy.readsBack {path : List String} {node : Node} (tidy : Tidy path node) :
    node.isElement = true → ReadsBack path node := by
  induction tidy with
  | text => nofun
  | empty kept empty =>
      intro _ above formatting elements state rest inside
      have written := writes_empty kept empty
      obtain ⟨tag, plain, same, rfl⟩ := kept.exists_tag
      have starts := Reads.startTag plain inside.data rest
      rw [same, inside.take_startTag] at starts
      exact ⟨_, inside.withoutSkip.startInBody_empty empty, written ▸ starts⟩
  | @element path element children kept stands tidies ih =>
      intro _ above formatting elements state rest inside
      have written := stands.writes children
      obtain ⟨tag, plain, same, rfl⟩ := kept.exists_tag
      have starts := Reads.startTag plain inside.data
        ((Tree.writeAll .outside children).toList ++ (tag.element.endTag.toList ++ rest))
      rw [same, inside.take_startTag] at starts
      obtain ⟨fresh, opened⟩ := inside.withoutSkip.startInBody stands
      obtain ⟨next, there, reads⟩ :=
        reads_behind_startTag plain stands tidies ih inside.settled opened rest
      refine ⟨next, by simpa [Tree.labels] using there, ?_⟩
      simpa [written] using starts.trans reads

/-- The first element of a document is read into a new body. -/
theorem Tidy.reads_start {node : Node} (tidy : Tidy [] node) (element : node.isElement = true)
    (rest : List Char) :
    ∃ next, Inside [] [] [] node.labels next ∧
      Reads State.start ((Tree.write .outside node).toList ++ rest) next rest := by
  cases tidy with
  | text => cases element
  | empty kept empty =>
      have late : ∀ name ∈ emptyNames, name ∉ earlyNames := by decide
      have written := writes_empty kept empty
      obtain ⟨tag, plain, same, rfl⟩ := kept.exists_tag
      have starts := Reads.startTag plain (rfl : State.start.reading = .data) rest
      rw [same, take_start (late _ empty)] at starts
      exact ⟨_, inside_bareState.startInBody_empty empty, written ▸ starts⟩
  | @element _ _ children kept stands tidies =>
      have written := stands.writes children
      obtain ⟨tag, plain, same, rfl⟩ := kept.exists_tag
      have starts := Reads.startTag plain (rfl : State.start.reading = .data)
        ((Tree.writeAll .outside children).toList ++ (tag.element.endTag.toList ++ rest))
      rw [same, take_start stands.name_ne.1] at starts
      obtain ⟨fresh, opened⟩ := inside_bareState.startInBody stands
      obtain ⟨next, there, reads⟩ := reads_behind_startTag plain stands tidies
        (fun child member => (tidies child member).readsBack) inside_bareState.settled opened rest
      refine ⟨next, by simpa [Tree.labels] using there, ?_⟩
      simpa [written] using starts.trans reads

theorem feed_not_mem_writeAll {nodes : List Node}
    (each : ∀ node ∈ nodes, '\r' ∉ (Tree.write .outside node).toList) :
    '\r' ∉ (Tree.writeAll .outside nodes).toList := by
  induction nodes with
  | nil => exact List.not_mem_nil
  | cons node nodes ih =>
      obtain ⟨first, others⟩ := List.forall_mem_cons.mp each
      simp [Tree.writeAll, first, ih others]

theorem Tidy.feed_not_mem_write {path : List String} {node : Node} (tidy : Tidy path node) :
    '\r' ∉ (Tree.write .outside node).toList := by
  induction tidy with
  | text feeds =>
      simpa [Tree.write, Surroundings.outside, escapeText] using
        feed_not_mem_escaped escapes_text feeds
  | empty kept empty =>
      rw [writes_empty kept empty]
      exact kept.feed_not_mem_startTag
  | element kept stands _ ih =>
      simp [stands.writes, kept.feed_not_mem_startTag, kept.feed_not_mem_endTag,
        feed_not_mem_writeAll ih]

/-- Nodes that stand in a body of their own: no text comes first or last. -/
structure TidyBody (nodes : List Node) : Prop where
  tidy : ∀ node ∈ nodes, Tidy [] node
  first : ∀ node ∈ nodes.head?, node.isElement = true
  last : ∀ node ∈ nodes.getLast?, node.isElement = true

instance (nodes : List Node) : Decidable (TidyBody nodes) :=
  decidable_of_iff
    ((∀ node ∈ nodes, Tidy [] node) ∧ (∀ node ∈ nodes.head?, node.isElement = true) ∧
      ∀ node ∈ nodes.getLast?, node.isElement = true)
    ⟨fun ⟨tidy, first, last⟩ => ⟨tidy, first, last⟩,
      fun body => ⟨body.tidy, body.first, body.last⟩⟩

/-- Two bodies with a text between them are one. -/
theorem TidyBody.join {left right : List Node} (first : TidyBody left) (second : TidyBody right)
    (leftSome : left ≠ []) (rightSome : right ≠ []) {between : String}
    (feeds : '\r' ∉ between.toList) : TidyBody (left ++ .text between :: right) where
  tidy := List.forall_mem_append.mpr
    ⟨first.tidy, List.forall_mem_cons.mpr ⟨.text feeds, second.tidy⟩⟩
  first := by
    rw [List.head?_append_of_ne_nil _ leftSome]
    exact first.first
  last := by
    rw [← List.concat_append, List.getLast?_append_of_ne_nil _ rightSome]
    exact second.last

theorem TidyBody.reads {nodes : List Node} (body : TidyBody nodes) (some : nodes ≠ []) :
    ∃ next, Inside [] [] [] (Tree.labelsAll nodes) next ∧
      Reads State.start (Tree.writeAll .outside nodes).toList next [] := by
  obtain ⟨tidy, first, last⟩ := body
  cases nodes with
  | nil => exact absurd rfl some
  | cons node nodes =>
      obtain ⟨standing, tidies⟩ := List.forall_mem_cons.mp tidy
      obtain rfl | ⟨between, final, rfl⟩ := List.eq_nil_or_concat' nodes
      · obtain ⟨next, there, reads⟩ := standing.reads_start (first node rfl) []
        exact ⟨next, by simpa [Tree.labelsAll] using there, by simpa [Tree.writeAll] using reads⟩
      · have closing : (node :: (between ++ [final])).getLast? = .some final := by
          rw [← List.cons_append, List.getLast?_concat]
        obtain ⟨inner, outer⟩ := List.forall_mem_append.mp tidies
        have standsLast := outer final List.mem_cons_self
        have ends := last final closing
        obtain ⟨tag, children, rfl⟩ := exists_element ends
        obtain ⟨tail, written⟩ := exists_write_element tag children
        obtain ⟨begun, started, reads⟩ := standing.reads_start (first node rfl)
          ((Tree.writeAll .outside between).toList ++ '<' :: tail)
        obtain ⟨middle, within, content⟩ := reads_nodes inner
          (fun child member => (inner child member).readsBack) started [] tail
        obtain ⟨next, there, rest⟩ := standsLast.readsBack ends _ _ _ _ [] within
        rw [List.append_nil, written] at rest
        refine ⟨next, ?_, ?_⟩
        · simpa [Tree.labelsAll, Tree.labelsAll_append] using there
        · rw [Tree.writeAll, String.toList_append, toList_writeAll_concat, written]
          exact reads.trans (content.trans rest)

theorem TidyBody.exists_write {nodes : List Node} (body : TidyBody nodes) (some : nodes ≠ []) :
    ∃ rest, (Tree.writeAll .outside nodes).toList = '<' :: rest := by
  obtain ⟨node, nodes, rfl⟩ := List.exists_cons_of_ne_nil some
  obtain ⟨tag, children, rfl⟩ := exists_element (body.first node rfl)
  obtain ⟨rest, written⟩ := exists_write_element tag children
  rw [Tree.writeAll, String.toList_append, written]
  exact ⟨_, rfl⟩

theorem TidyBody.documentText {nodes : List Node} (body : TidyBody nodes) (some : nodes ≠ []) :
    documentText (Tree.writeAll .outside nodes) = (Tree.writeAll .outside nodes).toList := by
  have unmarked : withoutByteOrderMark (Tree.writeAll .outside nodes).toList =
      (Tree.writeAll .outside nodes).toList := by
    obtain ⟨rest, written⟩ := body.exists_write some
    rw [written]
    rfl
  have none := feed_not_mem_writeAll fun node member => (body.tidy node member).feed_not_mem_write
  have feeds := lineFeeds_append_of_not_mem [] none
  rw [List.append_nil, lineFeeds, List.append_nil] at feeds
  rw [Html.documentText, unmarked, feeds]

/-- Tidy markup is a body with the elements that have been written. -/
theorem TidyBody.parseBody? {nodes : List Node} (body : TidyBody nodes) :
    ∃ reread, Html.parseBody? (Tree.writeAll .outside nodes) = some reread ∧
      ∀ tag, tag ∈ reread.labels ↔ tag = .ofName "body" [] ∨ tag ∈ Tree.labelsAll nodes := by
  refine parseBody?_of_bodyHolds ?_
  by_cases none : nodes = []
  · subst none
    exact .bare
  · obtain ⟨next, inside, reads⟩ := body.reads none
    have ended : next.take .finish = { next with skipsNewline := false } := by
      refine inside.take_of_done rfl nofun ?_
      rw [State.inBody, State.finishInBody, inside.templates]
      rfl
    rw [parseDocument]
    simp only [body.documentText none]
    rw [reads.readWithin_eq inside.data (by omega), ended]
    exact inside.holds

end Bindery.Html
