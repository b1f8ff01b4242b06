import Bindery.Proofs.Html.Place
import Bindery.Proofs.Html.Reading

/-!
# Nodes put into a tree

An element at a place may be given other children. What is written around its children
stays as it is, so a node that is put first among them is written right behind the start
tag of the element.
-/

set_option autoImplicit false

namespace Bindery.Html

namespace Tree

section

variable {α : Type}

/-- Gives the element at a place other children. -/
def withChildren (nodes : List (Tree α)) : Place → Tree α → Tree α
  | [], .element label _ => .element label nodes
  | index :: rest, .element label children =>
      .element label (children.modify index (withChildren nodes rest))
  | _, other => other

/-- The element at the place is the first one in document order that satisfies the test. -/
structure IsFirst (accepts : α → Bool) (tree : Tree α) (place : Place) (label : α) : Prop where
  stands : tree.labelAt? place = some label
  accepted : accepts label = true
  first : ∀ earlier < place, ∀ other, tree.labelAt? earlier = some other → accepts other = false

/-- A child with those before it and those behind it. -/
theorem exists_siblings {nodes : List (Tree α)} {index : Nat} {child : Tree α}
    (selected : nodes[index]? = some child) :
    ∃ before after, nodes = before ++ child :: after ∧ before.length = index ∧
      ∀ change : Tree α → Tree α, nodes.modify index change = before ++ change child :: after := by
  obtain ⟨inside, rfl⟩ := List.getElem?_eq_some_iff.mp selected
  refine ⟨nodes.take index, nodes.drop (index + 1), ?_, List.length_take_of_le inside.le, ?_⟩
  · rw [List.getElem_cons_drop, List.take_append_drop]
  · exact fun change => List.modify_eq_take_cons_drop inside

theorem at?_eq_some_cons {tree found : Tree α} {index : Nat} {rest : Place}
    (stands : tree.at? (index :: rest) = some found) :
    ∃ label before child after, tree = .element label (before ++ child :: after) ∧
      before.length = index ∧ child.at? rest = some found ∧
      ∀ nodes, tree.withChildren nodes (index :: rest) =
        .element label (before ++ child.withChildren nodes rest :: after) := by
  obtain ⟨child, selected, below⟩ := Option.bind_eq_some_iff.mp stands
  cases tree with
  | element label children =>
      obtain ⟨before, after, whole, length, modified⟩ := exists_siblings selected
      obtain rfl : children = before ++ child :: after := whole
      exact ⟨label, before, child, after, rfl, length, below,
        fun nodes => congrArg (Tree.element label) (modified _)⟩
  | text content => simp [Tree.children] at selected
  | comment content => simp [Tree.children] at selected

theorem withChildren_self {tree : Tree α} {place : Place} {label : α} {children : List (Tree α)}
    (stands : tree.at? place = some (.element label children)) :
    tree.withChildren children place = tree := by
  induction place generalizing tree with
  | nil =>
      obtain rfl := Option.some.inj stands
      rfl
  | cons index rest ih =>
      obtain ⟨own, before, child, after, rfl, -, below, changed⟩ := at?_eq_some_cons stands
      rw [changed, ih below]

/-! ## The first element that satisfies a test -/

variable {accepts : α → Bool} {child : Tree α}

theorem prependInAny?_eq_some {nodes changed : List (Tree α)}
    (prepended : prependInAny? accepts child nodes = some changed) :
    ∃ before node after result, nodes = before ++ node :: after ∧
      (∀ other ∈ before, prependIn? accepts child other = none) ∧
      prependIn? accepts child node = some result ∧ changed = before ++ result :: after := by
  induction nodes generalizing changed with
  | nil => cases prepended
  | cons node nodes ih =>
      rw [prependInAny?] at prepended
      cases here : prependIn? accepts child node with
      | some result =>
          rw [here] at prepended
          cases prepended
          exact ⟨[], node, nodes, result, rfl, nofun, here, rfl⟩
      | none =>
          rw [here] at prepended
          obtain ⟨later, there, rfl⟩ := Option.map_eq_some_iff.mp prepended
          obtain ⟨before, found, after, result, rfl, passed, same, rfl⟩ := ih there
          exact ⟨node :: before, found, after, result, rfl,
            List.forall_mem_cons.mpr ⟨here, passed⟩, same, rfl⟩

theorem prependInAny?_eq_none {nodes : List (Tree α)}
    (missed : prependInAny? accepts child nodes = none) :
    ∀ node ∈ nodes, prependIn? accepts child node = none := by
  induction nodes with
  | nil => nofun
  | cons node nodes ih =>
      rw [prependInAny?] at missed
      cases here : prependIn? accepts child node with
      | some result =>
          rw [here] at missed
          cases missed
      | none =>
          rw [here] at missed
          exact List.forall_mem_cons.mpr ⟨here, ih (Option.map_eq_none_iff.mp missed)⟩

/-- Where no element satisfies the test, nothing is put in. -/
theorem prependIn?_eq_none {tree : Tree α} (missed : prependIn? accepts child tree = none) :
    ∀ label ∈ tree.labels, accepts label = false := by
  induction tree using induction_children with
  | element own children ih =>
      rw [prependIn?] at missed
      split at missed
      · cases missed
      · next other =>
          have below := prependInAny?_eq_none (Option.map_eq_none_iff.mp missed)
          intro label member
          rw [labels, List.mem_cons, labelsAll_eq_flatMap, List.mem_flatMap] at member
          rcases member with rfl | ⟨node, listed, member⟩
          · exact Bool.eq_false_iff.mpr other
          · exact ih node listed (below node listed) label member
  | text content => rintro label ⟨⟩
  | comment content => rintro label ⟨⟩

/-- A node is put before the children of the first element that satisfies the test. -/
theorem prependIn?_eq_some {tree changed : Tree α}
    (prepended : prependIn? accepts child tree = some changed) :
    ∃ place label children, IsFirst accepts tree place label ∧
      tree.at? place = some (.element label children) ∧
      changed = tree.withChildren (child :: children) place := by
  induction tree using induction_children generalizing changed with
  | element own children ih =>
      rw [prependIn?] at prepended
      split at prepended
      · next here =>
          cases prepended
          exact ⟨[], own, children, ⟨rfl, here, fun _ before => absurd before (List.not_lt_nil _)⟩,
            rfl, rfl⟩
      · next elsewhere =>
          obtain ⟨nodes, there, rfl⟩ := Option.map_eq_some_iff.mp prepended
          obtain ⟨before, node, after, result, rfl, passed, found, rfl⟩ :=
            prependInAny?_eq_some there
          obtain ⟨place, label, below, ⟨stands, accepted, first⟩, held, rfl⟩ :=
            ih node (by simp) found
          have selected : (before ++ node :: after)[before.length]? = some node := by simp
          refine ⟨before.length :: place, label, below, ⟨?_, accepted, ?_⟩, ?_, ?_⟩
          · rw [labelAt?_cons, Tree.children, selected]
            exact stands
          · intro earlier smaller other there
            cases earlier with
            | nil =>
                obtain rfl := Option.some.inj there
                exact Bool.eq_false_iff.mpr elsewhere
            | cons index rest =>
                rw [labelAt?_cons] at there
                obtain ⟨sibling, among, there⟩ := Option.bind_eq_some_iff.mp there
                rcases List.cons_lt_cons_iff.mp smaller with left | ⟨rfl, deeper⟩
                · rw [Tree.children, List.getElem?_append_left left] at among
                  exact prependIn?_eq_none (passed sibling (List.mem_of_getElem? among)) other
                    (mem_labels.mpr ⟨rest, there⟩)
                · rw [Tree.children, selected] at among
                  cases among
                  exact first rest deeper other there
          · rw [at?_cons, Tree.children, selected]
            exact held
          · have inside : before.length < (before ++ node :: after).length := by simp
            rw [withChildren, List.modify_eq_take_cons_drop inside]
            simp
  | text content => cases prepended
  | comment content => cases prepended

end

/-! ## What is written around the children of an element -/

/-- The element at the place is void, or one around it is, so that no tags are written inside. -/
def InVoid (tree : Node) (place : Place) : Prop :=
  ∃ outer, outer <+: place ∧ ∃ label, tree.labelAt? outer = some label ∧ label.isVoid = true

/-- Markup around what an element holds, whatever it holds. The markup in front ends with the start
tag of the element, and that behind begins with its end tag. -/
structure Frames (write : List Node → String) (tag : Element) (inside : Surroundings)
    (front back : String) : Prop where
  written : ∀ nodes, write nodes = front ++ writeAll inside nodes ++ back
  opens : inside.void = false → ∃ before, front = before ++ tag.startTag
  ends : inside.void = false → ∃ after, back = tag.endTag ++ after

theorem Frames.extend {write : List Node → String} {tag : Element} {inside : Surroundings}
    {front back : String} (frames : Frames write tag inside front back) (before after : String) :
    Frames (fun nodes => before ++ write nodes ++ after) tag inside (before ++ front)
      (back ++ after) where
  written nodes := by simp only [frames.written, String.append_assoc]
  opens shown := by
    obtain ⟨earlier, rfl⟩ := frames.opens shown
    exact ⟨before ++ earlier, String.append_assoc.symm⟩
  ends shown := by
    obtain ⟨later, rfl⟩ := frames.ends shown
    exact ⟨later ++ after, String.append_assoc⟩

theorem inVoid_nil_iff {label : Element} {children : List Node} :
    InVoid (.element label children) [] ↔ label.isVoid = true := by
  simp [InVoid, label?]

theorem inVoid_cons_iff {label : Element} {before after : List Node} {child : Node}
    {rest : Place} :
    InVoid (.element label (before ++ child :: after)) (before.length :: rest) ↔
      label.isVoid = true ∨ InVoid child rest := by
  constructor
  · rintro ⟨outer, above, tag, found, void⟩
    cases outer with
    | nil =>
        obtain rfl := Option.some.inj found
        exact .inl void
    | cons index outer =>
        obtain ⟨rfl, beyond⟩ := List.cons_prefix_cons.mp above
        exact .inr ⟨outer, beyond, tag, by simpa [Tree.children] using found, void⟩
  · rintro (void | ⟨outer, above, tag, found, void⟩)
    · exact ⟨[], List.nil_prefix, label, rfl, void⟩
    · exact ⟨before.length :: outer, List.cons_prefix_cons.mpr ⟨rfl, above⟩, tag,
        by simpa [Tree.children] using found, void⟩

/-- The markup around the children of the element at a place. -/
theorem exists_frames {tree : Node} {place : Place} {label : Element} {children : List Node}
    (stands : tree.at? place = some (.element label children)) (around : Surroundings) :
    ∃ inside front back, inside.verbatim = label.isVerbatim ∧
      (inside.void = true ↔ around.void = true ∨ InVoid tree place) ∧
      Frames (fun nodes => write around (tree.withChildren nodes place)) label inside front
        back := by
  induction place generalizing tree around with
  | nil =>
      obtain rfl := Option.some.inj stands
      refine ⟨⟨label.isVerbatim, around.void || label.isVoid⟩,
        if around.void then "" else label.startTag,
        if around.void || label.isVoid then "" else label.endTag, rfl, ?_, ?_, ?_, ?_⟩
      · simp [inVoid_nil_iff]
      · intro nodes
        rw [withChildren, write]
        cases around.void <;> cases label.isVoid <;> simp
      · intro shown
        exact ⟨"", by simp_all⟩
      · intro shown
        exact ⟨"", by simp_all⟩
  | cons index rest ih =>
      obtain ⟨own, before, child, after, rfl, rfl, below, changed⟩ := at?_eq_some_cons stands
      let inner : Surroundings := ⟨own.isVerbatim, around.void || own.isVoid⟩
      obtain ⟨inside, front, back, verbatim, void, frames⟩ := ih below inner
      have tags : ∃ opening closing : String, ∀ nodes : List Node,
          write around (.element own nodes) = opening ++ writeAll inner nodes ++ closing := by
        refine ⟨if around.void then "" else own.startTag,
          if around.void || own.isVoid then "" else own.endTag, fun nodes => ?_⟩
        rw [write]
        cases hidden : around.void <;> cases single : own.isVoid <;> simp [inner, hidden, single]
      obtain ⟨opening, closing, whole⟩ := tags
      have wide := (frames.extend (writeAll inner before) (writeAll inner after)).extend
        opening closing
      have same : (fun nodes => write around
          ((Tree.element own (before ++ child :: after)).withChildren nodes
            (before.length :: rest))) = fun nodes => opening ++ (writeAll inner before ++
              write inner (child.withChildren nodes rest) ++ writeAll inner after) ++ closing := by
        funext nodes
        rw [changed, whole, writeAll_append, writeAll]
        simp only [String.append_assoc]
      refine ⟨inside, _, _, verbatim, ?_, same ▸ wide⟩
      rw [void, inVoid_cons_iff]
      simp [inner, or_assoc]

/-- The elements from the child of the root down to the place have tags. -/
def TagsShown (tree : Node) (place : Place) : Prop :=
  ∀ outer ≠ [], outer <+: place → ∀ label, tree.labelAt? outer = some label → label.isVoid = false

/-- Markup around what an element below a root holds. The root itself has no tags in it. -/
structure FramesInside (root : Node) (place : Place) (tag : Element) (inside : Surroundings)
    (front back : String) : Prop where
  written : ∀ nodes, (root.withChildren nodes place).inner = front ++ writeAll inside nodes ++ back
  opens : place ≠ [] → inside.void = false → ∃ before, front = before ++ tag.startTag
  ends : place ≠ [] → inside.void = false → ∃ after, back = tag.endTag ++ after
  whole : place = [] → front = "" ∧ back = ""

theorem exists_framesInside {root : Node} {place : Place} {label : Element}
    {children : List Node} (stands : root.at? place = some (.element label children)) :
    ∃ inside front back, (inside.void = false ↔ TagsShown root place) ∧
      FramesInside root place label inside front back := by
  cases place with
  | nil =>
      obtain rfl := Option.some.inj stands
      refine ⟨.outside, "", "", ?_, ?_, nofun, nofun, fun _ => ⟨rfl, rfl⟩⟩
      · refine ⟨fun _ outer some above => ?_, fun _ => rfl⟩
        exact absurd (List.prefix_nil.mp above) some
      · intro nodes
        simp [withChildren, inner, Tree.children]
  | cons index rest =>
      obtain ⟨own, before, child, after, rfl, rfl, below, changed⟩ := at?_eq_some_cons stands
      obtain ⟨inside, front, back, -, void, frames⟩ := exists_frames below .outside
      have wide := frames.extend (writeAll .outside before) (writeAll .outside after)
      refine ⟨inside, _, _, ?_, ?_, fun _ => wide.opens, fun _ => wide.ends,
        fun top => absurd top (List.cons_ne_nil _ _)⟩
      · rw [← Bool.not_eq_true, void]
        constructor
        · intro shown outer some above tag found
          obtain ⟨position, further, rfl⟩ := List.exists_cons_of_ne_nil some
          obtain ⟨rfl, beyond⟩ := List.cons_prefix_cons.mp above
          refine Bool.eq_false_iff.mpr fun void => shown (.inr ⟨further, beyond, tag, ?_, void⟩)
          simpa [Tree.children] using found
        · rintro shown (outside | ⟨outer, above, tag, found, void⟩)
          · cases outside
          · have plain := shown (before.length :: outer) (List.cons_ne_nil _ _)
              (List.cons_prefix_cons.mpr ⟨rfl, above⟩) tag (by simpa [Tree.children] using found)
            rw [plain] at void
            cases void
      · intro nodes
        rw [← wide.written nodes, changed, inner, Tree.children, writeAll_append, writeAll,
          String.append_assoc]

end Tree

end Bindery.Html
