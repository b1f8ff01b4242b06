import Bindery.Html.Construction.Document
import Bindery.Proofs.Html.Place

/-!
# A body that grows

As long as nodes are only added below the body, each behind its parent, the tree of the
body has the elements that have been added and no others.
-/

set_option autoImplicit false

namespace Bindery.Html

/-- The element that a content is. -/
def Content.element? : Content → Option Element
  | .element tag => some tag
  | _ => none

namespace Arena

section

variable (arena : Arena) (node : Nat)

theorem element?_eq_bind : arena.element? node = (arena.slot? node).bind (·.content.element?) := by
  rw [element?]
  cases arena.slot? node with
  | none => rfl
  | some slot =>
      obtain ⟨content, parent, children, inside⟩ := slot
      cases content <;> rfl

theorem children_eq_elim : arena.children node = (arena.slot? node).elim #[] (·.children) := by
  rw [children]
  cases arena.slot? node <;> rfl

end

theorem lt_size_of_element? {arena : Arena} {node : Nat} {tag : Element}
    (found : arena.element? node = some tag) : node < arena.slots.size := by
  rw [element?_eq_bind] at found
  obtain ⟨slot, there, -⟩ := Option.bind_eq_some_iff.mp found
  exact (Array.getElem?_eq_some_iff.mp there).1

/-- A new node becomes the last child of another one. -/
def grow (arena : Arena) (parent : Nat) (content : Content) : Arena :=
  (arena.add content).1.append parent arena.slots.size

section

variable {arena : Arena} {parent : Nat} (inside : parent < arena.slots.size) (content : Content)

theorem size_grow (parent : Nat) :
    (arena.grow parent content).slots.size = arena.slots.size + 1 := by
  simp [grow, add, append, setParent, change]

include inside

theorem slot?_grow (node : Nat) :
    (arena.grow parent content).slot? node =
      if node = arena.slots.size then some ⟨content, some parent, #[], none⟩
      else if node = parent then
        (arena.slot? node).map fun slot =>
          { slot with children := slot.children.push arena.slots.size }
      else arena.slot? node := by
  simp only [grow, add, append, setParent, change, slot?, Array.getElem?_modify,
    Array.getElem?_push]
  grind

theorem element?_grow (node : Nat) :
    (arena.grow parent content).element? node =
      if node = arena.slots.size then content.element? else arena.element? node := by
  rw [element?_eq_bind, element?_eq_bind, slot?_grow inside]
  by_cases fresh : node = arena.slots.size
  · rw [if_pos fresh, if_pos fresh]
    rfl
  · rw [if_neg fresh, if_neg fresh]
    split
    · cases arena.slot? node <;> rfl
    · rfl

theorem children_grow (node : Nat) :
    (arena.grow parent content).children node =
      if node = arena.slots.size then #[]
      else if node = parent then (arena.children node).push arena.slots.size
      else arena.children node := by
  rw [children_eq_elim, children_eq_elim, slot?_grow inside]
  by_cases fresh : node = arena.slots.size
  · rw [if_pos fresh, if_pos fresh]
    rfl
  · rw [if_neg fresh, if_neg fresh]
    by_cases same : node = parent
    · subst same
      obtain ⟨slot, there⟩ : ∃ slot, arena.slot? node = some slot :=
        ⟨_, Array.getElem?_eq_getElem inside⟩
      rw [if_pos rfl, if_pos rfl, there]
      rfl
    · rw [if_neg same, if_neg same]

end

section

variable {arena : Arena} {node : Nat} (content : String)

theorem slot?_extendText (other : Nat) :
    (arena.extendText node content).slot? other =
      if other = node then
        (arena.slot? other).map fun slot =>
          match slot with
          | ⟨.text before, parent, children, inside⟩ =>
              ⟨.text (before ++ content), parent, children, inside⟩
          | slot => slot
      else arena.slot? other := by
  simp only [extendText, change, slot?, Array.getElem?_modify]
  grind

theorem element?_extendText (other : Nat) :
    (arena.extendText node content).element? other = arena.element? other := by
  rw [element?_eq_bind, element?_eq_bind, slot?_extendText]
  split
  · cases arena.slot? other with
    | none => rfl
    | some slot =>
        obtain ⟨content, parent, children, inside⟩ := slot
        cases content <;> rfl
  · rfl

theorem children_extendText (other : Nat) :
    (arena.extendText node content).children other = arena.children other := by
  rw [children_eq_elim, children_eq_elim, slot?_extendText]
  split
  · cases arena.slot? other with
    | none => rfl
    | some slot =>
        obtain ⟨content, parent, children, inside⟩ := slot
        cases content <;> rfl
  · rfl

theorem size_extendText : (arena.extendText node content).slots.size = arena.slots.size := by
  simp [extendText, change]

end

end Arena

theorem Arena.element?_grow_of_some {arena : Arena} {parent node : Nat} {tag : Element}
    (inside : parent < arena.slots.size) (content : Content)
    (found : arena.element? node = some tag) :
    (arena.grow parent content).element? node = some tag := by
  have old := lt_size_of_element? found
  rw [element?_grow inside, if_neg (by omega), found]

theorem Arena.element?_appendText_of_some {arena : Arena} {parent node : Nat} {tag : Element}
    (inside : parent < arena.slots.size) (content : String)
    (found : arena.element? node = some tag) :
    (arena.appendText parent content).element? node = some tag := by
  unfold appendText
  split
  · split
    · rw [element?_extendText, found]
    · exact element?_grow_of_some inside (.text content) found
  · exact element?_grow_of_some inside (.text content) found

/-! ## Reading the tree off -/

theorem treeWithin_of_element? {arena : Arena} {node : Nat} {tag : Element}
    (found : arena.element? node = some tag) (depth : Nat) :
    arena.treeWithin (depth + 1) node =
      some (.element tag ((arena.children node).toList.filterMap (arena.treeWithin depth))) := by
  rw [Arena.element?] at found
  rw [Arena.treeWithin, Arena.children]
  cases there : arena.slot? node with
  | none =>
      rw [there] at found
      cases found
  | some slot =>
      obtain ⟨content, parent, children, inside⟩ := slot
      rw [there] at found
      cases content with
      | element own =>
          cases found
          rfl
      | _ => cases found

theorem labels_treeWithin_of_none {arena : Arena} {depth node : Nat} {tree : Node}
    (other : arena.element? node = none) (found : arena.treeWithin depth node = some tree) :
    tree.labels = [] := by
  cases depth with
  | zero => cases found
  | succ depth =>
      rw [Arena.element?] at other
      rw [Arena.treeWithin] at found
      cases there : arena.slot? node with
      | none =>
          rw [there] at found
          cases found
      | some slot =>
          obtain ⟨content, parent, children, inside⟩ := slot
          rw [there] at found other
          cases content with
          | element own => cases other
          | holder => cases found
          | text content =>
              cases found
              rfl
          | comment content =>
              cases found
              rfl

/-! ## The body -/

/-- The node of the body of a document without a head of its own. -/
def bodyNode : Nat := 3

/-- A document with nothing in its body. -/
def bareDocument : Arena :=
  ⟨#[⟨.holder, none, #[1], none⟩, ⟨.element (.ofName "html" []), some 0, #[2, bodyNode], none⟩,
    ⟨.element (.ofName "head" []), some 1, #[], none⟩,
    ⟨.element (.ofName "body" []), some 1, #[], none⟩]⟩

/-- The elements below the body are these. Each node stands in the document behind its parent. -/
structure Arena.BodyHolds (arena : Arena) (elements : List Element) : Prop where
  before : ∀ node < bodyNode, arena.element? node = bareDocument.element? node ∧
    arena.children node = bareDocument.children node
  body : arena.element? bodyNode = some (.ofName "body" [])
  later : ∀ parent child, bodyNode ≤ parent → child ∈ arena.children parent →
    parent < child ∧ child < arena.slots.size
  reached : ∀ node, bodyNode < node → node < arena.slots.size →
    ∃ parent tag, bodyNode ≤ parent ∧ parent < node ∧ arena.element? parent = some tag ∧
      node ∈ arena.children parent
  added : ∀ tag, (∃ node, bodyNode < node ∧ arena.element? node = some tag) ↔ tag ∈ elements

namespace Arena.BodyHolds

variable {arena : Arena} {elements : List Element}

theorem bare : bareDocument.BodyHolds [] where
  before _ _ := ⟨rfl, rfl⟩
  body := rfl
  later := by
    intro parent child below member
    have childless : bareDocument.children parent = #[] := by
      match parent, below with
      | 3, _ => rfl
      | _ + 4, _ => rfl
    simp [childless] at member
  reached := by
    intro node below inside
    exact absurd inside (Nat.not_lt.mpr below)
  added := by
    intro tag
    simp only [List.not_mem_nil, iff_false, not_exists, not_and]
    intro node below found
    exact absurd (lt_size_of_element? found) (Nat.not_lt.mpr below)

theorem size_gt (holds : arena.BodyHolds elements) : bodyNode < arena.slots.size :=
  lt_size_of_element? holds.body

theorem grow (holds : arena.BodyHolds elements) {parent : Nat} (below : bodyNode ≤ parent)
    {tag : Element} (opened : arena.element? parent = some tag) (content : Content) :
    (arena.grow parent content).BodyHolds (elements ++ content.element?.toList) := by
  have inside := lt_size_of_element? opened
  have large := holds.size_gt
  refine ⟨?before, ?body, ?later, ?reached, ?added⟩
  case before =>
    intro node early
    rw [element?_grow inside, children_grow inside, if_neg (by omega), if_neg (by omega),
      if_neg (by omega)]
    exact holds.before node early
  case body =>
    rw [element?_grow inside, if_neg (by omega)]
    exact holds.body
  case later =>
    intro other child behind member
    rw [children_grow inside] at member
    rw [size_grow]
    split at member
    · simp at member
    · split at member
      · rcases Array.mem_push.mp member with old | rfl
        · have := holds.later other child behind old
          omega
        · omega
      · have := holds.later other child behind member
        omega
  case reached =>
    intro node behind small
    rw [size_grow] at small
    by_cases fresh : node = arena.slots.size
    · refine ⟨parent, tag, below, by omega, ?_, ?_⟩
      · rw [element?_grow inside, if_neg (by omega), opened]
      · rw [children_grow inside, if_neg (by omega), if_pos rfl, fresh]
        exact Array.mem_push_self
    · obtain ⟨other, owner, first, earlier, found, member⟩ :=
        holds.reached node behind (by omega)
      refine ⟨other, owner, first, earlier, element?_grow_of_some inside content found, ?_⟩
      rw [children_grow inside, if_neg (by omega)]
      split
      · exact Array.mem_push_of_mem _ member
      · exact member
  case added =>
    intro other
    rw [List.mem_append, ← holds.added]
    constructor
    · rintro ⟨node, behind, found⟩
      rw [element?_grow inside] at found
      split at found
      · exact .inr (Option.mem_toList.mpr found)
      · exact .inl ⟨node, behind, found⟩
    · rintro (⟨node, behind, found⟩ | fresh)
      · exact ⟨node, behind, element?_grow_of_some inside content found⟩
      · refine ⟨arena.slots.size, large, ?_⟩
        rw [element?_grow inside, if_pos rfl]
        exact Option.mem_toList.mp fresh

theorem extendText (holds : arena.BodyHolds elements) (node : Nat) (content : String) :
    (arena.extendText node content).BodyHolds elements := by
  obtain ⟨before, body, later, reached, added⟩ := holds
  constructor <;> simpa only [element?_extendText, children_extendText, size_extendText]

/-- Text leaves the elements as they are. -/
theorem appendText (holds : arena.BodyHolds elements) {parent : Nat} (below : bodyNode ≤ parent)
    {tag : Element} (opened : arena.element? parent = some tag) (content : String) :
    (arena.appendText parent content).BodyHolds elements := by
  have none : elements ++ (Content.text content).element?.toList = elements := List.append_nil _
  have grown := holds.grow below opened (.text content)
  rw [none] at grown
  unfold Arena.appendText
  split
  · split
    · exact holds.extendText _ content
    · exact grown
  · exact grown

/-! ## Its tree -/

theorem mem_treeWithin (holds : arena.BodyHolds elements) {depth node : Nat}
    (below : bodyNode ≤ node) {tree : Node} (found : arena.treeWithin depth node = some tree) :
    ∀ tag ∈ tree.labels, ∃ other, node ≤ other ∧ arena.element? other = some tag := by
  induction depth generalizing node tree with
  | zero => cases found
  | succ depth ih =>
      cases own : arena.element? node with
      | none => simp [labels_treeWithin_of_none own found]
      | some element =>
          rw [treeWithin_of_element? own] at found
          cases found
          intro tag member
          rw [Tree.labels, List.mem_cons, Tree.labelsAll_eq_flatMap, List.mem_flatMap] at member
          rcases member with rfl | ⟨tree, child, member⟩
          · exact ⟨node, Nat.le_refl node, own⟩
          · obtain ⟨number, listed, read⟩ := List.mem_filterMap.mp child
            have behind := (holds.later node number below (Array.mem_toList_iff.mp listed)).1
            obtain ⟨other, at_most, there⟩ := ih (by omega) read tag member
            exact ⟨other, by omega, there⟩

/-- Each node below the body is found from it with enough depth left to read its tree. -/
theorem labels_subset (holds : arena.BodyHolds elements) {body : Node}
    (read : arena.tree? bodyNode = some body) (node : Nat) (below : bodyNode ≤ node)
    (inside : node < arena.slots.size) :
    ∃ depth, arena.slots.size - node ≤ depth ∧
      ∀ tree, arena.treeWithin depth node = some tree → ∀ tag ∈ tree.labels, tag ∈ body.labels := by
  induction node using Nat.strong_induction_on with
  | _ node ih =>
      by_cases top : node = bodyNode
      · refine ⟨arena.slots.size, Nat.sub_le _ _, ?_⟩
        intro tree found
        rw [top] at found
        obtain rfl := Option.some.inj (found.symm.trans read)
        exact fun _ member => member
      · obtain ⟨parent, tag, first, earlier, found, member⟩ :=
          holds.reached node (by omega) inside
        obtain ⟨depth, enough, listed⟩ := ih parent earlier first (by omega)
        obtain ⟨less, rfl⟩ : ∃ less, depth = less + 1 := ⟨depth - 1, by omega⟩
        refine ⟨less, by omega, ?_⟩
        intro tree taken label there
        refine listed _ (treeWithin_of_element? found less) label ?_
        rw [Tree.labels, List.mem_cons, Tree.labelsAll_eq_flatMap, List.mem_flatMap]
        exact .inr ⟨tree, List.mem_filterMap.mpr ⟨node, Array.mem_toList_iff.mpr member, taken⟩,
          there⟩

theorem exists_tree (holds : arena.BodyHolds elements) :
    ∃ tree, arena.tree? bodyNode = some tree ∧
      ∀ tag, tag ∈ tree.labels ↔ tag = .ofName "body" [] ∨ tag ∈ elements := by
  obtain ⟨depth, size⟩ : ∃ depth, arena.slots.size = depth + 1 :=
    ⟨arena.slots.size - 1, by have := holds.size_gt; omega⟩
  have read : ∃ tree, arena.tree? bodyNode = some tree := by
    rw [Arena.tree?, size, treeWithin_of_element? holds.body]
    exact ⟨_, rfl⟩
  obtain ⟨tree, read⟩ := read
  refine ⟨tree, read, fun tag => ⟨?_, ?_⟩⟩
  · intro member
    obtain ⟨node, below, found⟩ := holds.mem_treeWithin (Nat.le_refl _) read tag member
    rcases Nat.eq_or_lt_of_le below with rfl | behind
    · exact .inl (Option.some.inj (found.symm.trans holds.body))
    · exact .inr ((holds.added tag).mp ⟨node, behind, found⟩)
  · intro either
    obtain ⟨node, below, found⟩ : ∃ node, bodyNode ≤ node ∧ arena.element? node = some tag := by
      rcases either with rfl | member
      · exact ⟨bodyNode, Nat.le_refl _, holds.body⟩
      · obtain ⟨node, behind, found⟩ := (holds.added tag).mpr member
        exact ⟨node, Nat.le_of_lt behind, found⟩
    have inside := lt_size_of_element? found
    obtain ⟨depth, enough, listed⟩ := holds.labels_subset read node below inside
    obtain ⟨less, rfl⟩ : ∃ less, depth = less + 1 := ⟨depth - 1, by omega⟩
    exact listed _ (treeWithin_of_element? found less) tag (by simp [Tree.labels])

/-- The body is found where it is. -/
theorem find_body (holds : arena.BodyHolds elements) :
    (arena.children State.document).toList.findSome? (arena.find? (·.name = "body")) =
      some bodyNode := by
  obtain ⟨depth, size⟩ : ∃ depth, arena.slots.size = depth + 4 :=
    ⟨arena.slots.size - 4, by have := holds.size_gt; simp [bodyNode] at this; omega⟩
  have document : arena.children State.document = #[1] := (holds.before 0 (by decide)).2
  have root : arena.element? 1 = some (.ofName "html" []) := (holds.before 1 (by decide)).1
  have below : arena.children 1 = #[2, bodyNode] := (holds.before 1 (by decide)).2
  have head : arena.element? 2 = some (.ofName "head" []) := (holds.before 2 (by decide)).1
  have empty : arena.children 2 = #[] := (holds.before 2 (by decide)).2
  simp [document, Arena.find?, size, Arena.findWithin, root, below, head, empty, holds.body,
    Element.ofName]

end Arena.BodyHolds

/-- A text whose reading ends with these elements in the body has a body with them. -/
theorem parseBody?_of_bodyHolds {text : String} {elements : List Element}
    (holds : (parseDocument text).BodyHolds elements) :
    ∃ body, parseBody? text = some body ∧
      ∀ tag, tag ∈ body.labels ↔ tag = .ofName "body" [] ∨ tag ∈ elements := by
  obtain ⟨body, read, listed⟩ := holds.exists_tree
  refine ⟨body, ?_, listed⟩
  rw [parseBody?, parse?, holds.find_body]
  exact read

end Bindery.Html
