import Bindery.Html.Tree
import Mathlib.Data.List.Lex
import Mathlib.Data.List.Pairwise
import Mathlib.Data.Set.Card

/-!
# Places in a tree

A place is the way down from the root: the position among the children at each
step. Places compare like words in a dictionary, which is document order.
-/

set_option autoImplicit false

namespace Bindery.Html

/-- The positions among the children on the way down. -/
abbrev Place := List Nat

namespace Tree

variable {α β : Type}

/-- A tree has a property that every element has once all of its children have it. -/
@[elab_as_elim]
theorem induction_children {motive : Tree α → Prop}
    (element : ∀ label children, (∀ child ∈ children, motive child) →
      motive (.element label children))
    (text : ∀ content, motive (.text content))
    (comment : ∀ content, motive (.comment content)) (tree : Tree α) : motive tree :=
  @Tree.rec α motive (fun children => ∀ child ∈ children, motive child) element text comment
    (fun _ member => absurd member List.not_mem_nil)
    (fun _ _ head tail child member => by
      rcases List.mem_cons.mp member with rfl | member
      · exact head
      · exact tail child member)
    tree

/-- The subtree at a place. -/
def at? : Tree α → Place → Option (Tree α)
  | tree, [] => some tree
  | tree, index :: rest => (tree.children[index]?).bind fun child => child.at? rest

def labelAt? (tree : Tree α) (place : Place) : Option α := (tree.at? place).bind label?

mutual

/-- The labels of all elements with their places, in document order. -/
def placed : Tree α → List (Place × α)
  | .element label children => ([], label) :: placedFrom 0 children
  | .text _ => []
  | .comment _ => []

/-- The same for children of which the first has the given position. -/
def placedFrom (index : Nat) : List (Tree α) → List (Place × α)
  | [] => []
  | tree :: rest =>
      tree.placed.map (fun item => (index :: item.1, item.2)) ++ placedFrom (index + 1) rest

end

@[simp] theorem at?_nil (tree : Tree α) : tree.at? [] = some tree := rfl

@[simp] theorem at?_cons (tree : Tree α) (index : Nat) (rest : Place) :
    tree.at? (index :: rest) = (tree.children[index]?).bind fun child => child.at? rest := rfl

@[simp] theorem labelAt?_nil (tree : Tree α) : tree.labelAt? [] = tree.label? := rfl

@[simp] theorem labelAt?_cons (tree : Tree α) (index : Nat) (rest : Place) :
    tree.labelAt? (index :: rest) =
      (tree.children[index]?).bind fun child => child.labelAt? rest := by
  simp only [labelAt?, at?_cons]
  cases tree.children[index]? <;> rfl

theorem mapAll_eq_map (change : α → β) (trees : List (Tree α)) :
    mapAll change trees = trees.map (map change) := by
  induction trees with
  | nil => rfl
  | cons tree rest ih => rw [mapAll, ih, List.map_cons]

@[simp] theorem children_map (change : α → β) (tree : Tree α) :
    (tree.map change).children = tree.children.map (map change) := by
  cases tree with
  | element label nodes => simp only [map, children, mapAll_eq_map]
  | text content => rfl
  | comment content => rfl

@[simp] theorem label?_map (change : α → β) (tree : Tree α) :
    (tree.map change).label? = tree.label?.map change := by
  cases tree <;> rfl

theorem at?_map (change : α → β) (tree : Tree α) (place : Place) :
    (tree.map change).at? place = (tree.at? place).map (map change) := by
  induction place generalizing tree with
  | nil => rfl
  | cons index rest ih =>
      rw [at?_cons, at?_cons, children_map, List.getElem?_map]
      cases tree.children[index]? with
      | none => rfl
      | some child => exact ih child

theorem labelAt?_map (change : α → β) (tree : Tree α) (place : Place) :
    (tree.map change).labelAt? place = (tree.labelAt? place).map change := by
  rw [labelAt?, labelAt?, at?_map]
  cases tree.at? place with
  | none => rfl
  | some subtree => exact label?_map change subtree

theorem placedFrom_eq_flatMap (index : Nat) (trees : List (Tree α)) :
    placedFrom index trees = (trees.zipIdx index).flatMap fun child =>
      child.1.placed.map fun item => (child.2 :: item.1, item.2) := by
  induction trees generalizing index with
  | nil => rfl
  | cons tree rest ih => rw [placedFrom, ih, List.zipIdx_cons, List.flatMap_cons]

theorem labelsAll_eq_flatMap (trees : List (Tree α)) : labelsAll trees = trees.flatMap labels := by
  induction trees with
  | nil => rfl
  | cons tree rest ih => rw [labelsAll, ih, List.flatMap_cons]

theorem labelsAll_append (left right : List (Tree α)) :
    labelsAll (left ++ right) = labelsAll left ++ labelsAll right := by
  simp only [labelsAll_eq_flatMap, List.flatMap_append]

theorem placed_map_snd (tree : Tree α) : tree.placed.map (·.2) = tree.labels := by
  induction tree using induction_children with
  | element label children ih =>
      simp only [placed, labels, placedFrom_eq_flatMap, labelsAll_eq_flatMap, List.map_cons,
        List.map_flatMap, List.map_map, Function.comp_def]
      congr 1
      calc
        children.zipIdx.flatMap (fun child => child.1.placed.map (·.2))
          = (children.zipIdx.map (·.1)).flatMap (fun child => child.placed.map (·.2)) := by
            rw [List.flatMap_map]
        _ = children.flatMap labels := by
            rw [List.zipIdx_map_fst]
            exact List.flatMap_congr fun child member => ih child member
  | text content => rfl
  | comment content => rfl

theorem placed_map (change : α → β) (tree : Tree α) :
    (tree.map change).placed = tree.placed.map fun item => (item.1, change item.2) := by
  induction tree using induction_children with
  | element label children ih =>
      simp only [map, placed, placedFrom_eq_flatMap, mapAll_eq_map, List.zipIdx_map,
        List.flatMap_map, List.map_cons, List.map_flatMap, List.map_map, Function.comp_def]
      congr 1
      refine List.flatMap_congr fun child member => ?_
      rw [Prod.map_fst, ih child.1 (List.fst_mem_of_mem_zipIdx member), List.map_map]
      rfl
  | text content => rfl
  | comment content => rfl

/-- Every label stands in the list with its place, and nothing else does. -/
theorem mem_placed {tree : Tree α} {place : Place} {label : α} :
    (place, label) ∈ tree.placed ↔ tree.labelAt? place = some label := by
  induction tree using induction_children generalizing place with
  | element own children ih =>
      simp only [placed, placedFrom_eq_flatMap, List.mem_cons, Prod.mk.injEq, List.mem_flatMap,
        List.mem_map, Prod.exists]
      constructor
      · rintro (⟨rfl, rfl⟩ | ⟨child, index, position, rest, found, member, rfl, rfl⟩)
        · rfl
        · have selected : children[index]? = some child :=
            List.mk_mem_zipIdx_iff_getElem?.mp position
          rw [labelAt?_cons, Tree.children, selected]
          exact (ih child (List.mem_of_getElem? selected)).mp member
      · intro found
        cases place with
        | nil => exact .inl ⟨rfl, by simpa [Tree.label?] using found.symm⟩
        | cons index rest =>
            rw [labelAt?_cons] at found
            obtain ⟨child, selected, found⟩ := Option.bind_eq_some_iff.mp found
            exact .inr ⟨child, index, List.mk_mem_zipIdx_iff_getElem?.mpr selected, rest, label,
              (ih child (List.mem_of_getElem? selected)).mpr found, rfl, rfl⟩
  | text content => cases place <;> simp [placed, Tree.label?, Tree.children]
  | comment content => cases place <;> simp [placed, Tree.label?, Tree.children]

theorem labelAt?_eq_some_iff {tree : Tree α} {place : Place} {label : α} :
    tree.labelAt? place = some label ↔
      ∃ children, tree.at? place = some (.element label children) := by
  rw [labelAt?]
  cases tree.at? place with
  | none => simp
  | some subtree => cases subtree <;> simp [label?]

/-- The list is in document order. -/
theorem placed_sorted (tree : Tree α) :
    tree.placed.Pairwise fun left right => left.1 < right.1 := by
  induction tree using induction_children with
  | element label children ih =>
      rw [placed, List.pairwise_cons, placedFrom_eq_flatMap, List.pairwise_flatMap]
      refine ⟨?_, ?_, ?_⟩
      · intro item member
        obtain ⟨child, -, member⟩ := List.mem_flatMap.mp member
        obtain ⟨below, -, rfl⟩ := List.mem_map.mp member
        exact List.nil_lt_cons _ _
      · intro child member
        rw [List.pairwise_map]
        refine (ih child.1 (List.fst_mem_of_mem_zipIdx member)).imp ?_
        intro left right smaller
        exact List.cons_lt_cons_iff.mpr (.inr ⟨rfl, smaller⟩)
      · have ascending : (children.zipIdx.map (·.2)).Pairwise (· < ·) := by
          rw [List.zipIdx_map_snd]
          exact List.pairwise_lt_range'
        refine (List.pairwise_map.mp ascending).imp ?_
        intro left right smaller leftItem leftMember rightItem rightMember
        obtain ⟨leftBelow, -, rfl⟩ := List.mem_map.mp leftMember
        obtain ⟨rightBelow, -, rfl⟩ := List.mem_map.mp rightMember
        exact List.cons_lt_cons_iff.mpr (.inl smaller)
  | text content => exact List.Pairwise.nil
  | comment content => exact List.Pairwise.nil

theorem map_congr {left right : α → β} {tree : Tree α}
    (same : ∀ place label, tree.labelAt? place = some label → left label = right label) :
    tree.map left = tree.map right := by
  induction tree using induction_children with
  | element label children ih =>
      rw [map, map, mapAll_eq_map, mapAll_eq_map, same [] label rfl]
      congr 1
      refine List.map_congr_left fun child member => ih child member ?_
      intro place below found
      obtain ⟨index, selected⟩ := List.getElem?_of_mem member
      refine same (index :: place) below ?_
      rw [labelAt?_cons, Tree.children, selected]
      exact found
  | text content => rfl
  | comment content => rfl

theorem mem_labels {tree : Tree α} {label : α} :
    label ∈ tree.labels ↔ ∃ place, tree.labelAt? place = some label := by
  rw [← placed_map_snd, List.mem_map]
  constructor
  · rintro ⟨item, member, rfl⟩
    exact ⟨item.1, mem_placed.mp member⟩
  · rintro ⟨place, found⟩
    exact ⟨(place, label), mem_placed.mpr found, rfl⟩

theorem mem_labelsAll_children {tree : Tree α} {label : α} :
    label ∈ labelsAll tree.children ↔ ∃ place ≠ [], tree.labelAt? place = some label := by
  simp only [labelsAll_eq_flatMap, List.mem_flatMap, mem_labels]
  constructor
  · rintro ⟨child, member, place, found⟩
    obtain ⟨index, selected⟩ := List.mem_iff_getElem?.mp member
    exact ⟨index :: place, List.cons_ne_nil _ _, by simp [selected, found]⟩
  · rintro ⟨place, below, found⟩
    obtain ⟨index, place, rfl⟩ := List.exists_cons_of_ne_nil below
    rw [labelAt?_cons, Option.bind_eq_some_iff] at found
    obtain ⟨child, selected, found⟩ := found
    exact ⟨child, List.mem_of_getElem? selected, place, found⟩

theorem labels_map (change : α → β) (tree : Tree α) :
    (tree.map change).labels = tree.labels.map change := by
  rw [← placed_map_snd, placed_map, ← placed_map_snd, List.map_map, List.map_map]
  rfl

theorem labelsAll_map (change : α → β) (trees : List (Tree α)) :
    labelsAll (trees.map (map change)) = (labelsAll trees).map change := by
  simp only [labelsAll_eq_flatMap, List.flatMap_map, List.map_flatMap, labels_map]

theorem map_map {γ : Type} (second : β → γ) (first : α → β) (tree : Tree α) :
    (tree.map first).map second = tree.map (second ∘ first) := by
  induction tree using induction_children with
  | element label children ih =>
      simp only [map, mapAll_eq_map, List.map_map, Function.comp_apply]
      congr 1
      exact List.map_congr_left ih
  | text content => rfl
  | comment content => rfl

/-- Only what a change does to the labels that occur counts. -/
theorem forest_map_congr {left right : α → β} {trees : List (Tree α)}
    (same : ∀ label ∈ labelsAll trees, left label = right label) :
    trees.map (map left) = trees.map (map right) := by
  refine List.map_congr_left fun tree member => map_congr fun place label found => ?_
  rw [labelsAll_eq_flatMap] at same
  exact same label (List.mem_flatMap.mpr ⟨tree, member, mem_labels.mpr ⟨place, found⟩⟩)

/-- Counting the labels of a tree is counting their places. -/
theorem ncard_places (tree : Tree α) (accepted : Place → α → Bool) :
    {place | ∃ label, tree.labelAt? place = some label ∧ accepted place label = true}.ncard =
      tree.placed.countP fun item => accepted item.1 item.2 := by
  have distinct : ((tree.placed.filter fun item => accepted item.1 item.2).map (·.1)).Nodup := by
    rw [List.Nodup, List.pairwise_map]
    refine (tree.placed_sorted.imp ?_).filter _
    intro left right smaller same
    exact lt_irrefl _ (same ▸ smaller)
  have members : {place | ∃ label, tree.labelAt? place = some label ∧
      accepted place label = true} =
        ((tree.placed.filter fun item => accepted item.1 item.2).map (·.1)).toFinset := by
    ext place
    simp only [Set.mem_ofPred_eq, List.coe_toFinset, List.mem_map, List.mem_filter, Prod.exists,
      mem_placed]
    constructor
    · rintro ⟨label, found, wanted⟩
      exact ⟨place, label, ⟨found, wanted⟩, rfl⟩
    · rintro ⟨_, label, ⟨found, wanted⟩, rfl⟩
      exact ⟨label, found, wanted⟩
  rw [members, Set.ncard_coe_finset, List.toFinset_card_of_nodup distinct, List.length_map,
    List.countP_eq_length_filter]

/-- Two trees differ at most in their labels, which are related at each place. -/
def SameShape (related : Place → α → β → Prop) (left : Tree α) (right : Tree β) : Prop :=
  ∀ place, match left.at? place, right.at? place with
    | some (.element before _), some (.element after _) => related place before after
    | some (.text before), some (.text after) => before = after
    | some (.comment before), some (.comment after) => before = after
    | none, none => True
    | _, _ => False

theorem sameShape_map {γ : Type} {related : Place → β → γ → Prop} {left : α → β} {right : α → γ}
    {tree : Tree α}
    (all : ∀ place label, tree.labelAt? place = some label →
      related place (left label) (right label)) :
    SameShape related (tree.map left) (tree.map right) := by
  intro place
  rw [at?_map, at?_map]
  cases found : tree.at? place with
  | none => trivial
  | some subtree =>
      cases subtree with
      | element label children =>
          exact all place label (labelAt?_eq_some_iff.mpr ⟨children, found⟩)
      | text content => rfl
      | comment content => rfl

theorem SameShape.labelAt?_left {related : Place → α → β → Prop} {left : Tree α} {right : Tree β}
    (same : SameShape related left right) {place : Place} {after : β}
    (found : right.labelAt? place = some after) : ∃ before, left.labelAt? place = some before := by
  obtain ⟨children, found⟩ := labelAt?_eq_some_iff.mp found
  have here := same place
  rw [found] at here
  split at here <;> simp_all [labelAt?_eq_some_iff]

theorem SameShape.labelAt?_right {related : Place → α → β → Prop} {left : Tree α} {right : Tree β}
    (same : SameShape related left right) {place : Place} {before : α}
    (found : left.labelAt? place = some before) : ∃ after, right.labelAt? place = some after := by
  obtain ⟨children, found⟩ := labelAt?_eq_some_iff.mp found
  have here := same place
  rw [found] at here
  split at here <;> simp_all [labelAt?_eq_some_iff]

theorem SameShape.related {related : Place → α → β → Prop} {left : Tree α} {right : Tree β}
    (same : SameShape related left right) {place : Place} {before : α} {after : β}
    (found : left.labelAt? place = some before) (foundAfter : right.labelAt? place = some after) :
    related place before after := by
  obtain ⟨children, found⟩ := labelAt?_eq_some_iff.mp found
  obtain ⟨childrenAfter, foundAfter⟩ := labelAt?_eq_some_iff.mp foundAfter
  have here := same place
  rw [found, foundAfter] at here
  exact here

end Tree

end Bindery.Html
