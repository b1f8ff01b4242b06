import Bindery.Footnote.Scope
import Bindery.Proofs.Html.Place
import Mathlib.Data.List.Infix

/-!
# Scope numbers stand for scopes

The scope of an element is the nearest one around it, itself included, that opens
a scope. Two elements get the same scope number exactly if they have the same
scope, and the number zero if they have none.
-/

set_option autoImplicit false

namespace Bindery.Footnote

open Html (Place)

def opensAt (node : Html.Node) (place : Place) : Bool := (node.labelAt? place).any opensScope

/-- The place of the nearest element at or above a place that opens a scope. -/
def scopeOf (node : Html.Node) (place : Place) : Option Place :=
  place.inits.reverse.find? (opensAt node)

theorem opensAt_cons {node child : Html.Node} {index : Nat} (rest : Place)
    (found : node.children[index]? = some child) :
    opensAt node (index :: rest) = opensAt child rest := by
  rw [opensAt, Html.Tree.labelAt?_cons, found]
  rfl

theorem scopeOf_nil (node : Html.Node) :
    scopeOf node [] = if opensAt node [] then some [] else none := by
  simp [scopeOf, List.find?_cons]
  split <;> simp_all

/-- The nearest scope is looked for below first. -/
theorem scopeOf_cons {node child : Html.Node} {index : Nat} (rest : Place)
    (found : node.children[index]? = some child) :
    scopeOf node (index :: rest) =
      ((scopeOf child rest).map (index :: ·)).or (scopeOf node []) := by
  have below : (opensAt node ∘ fun place => index :: place) = opensAt child :=
    funext fun place => opensAt_cons place found
  simp only [scopeOf, List.inits_cons, List.reverse_cons, ← List.map_reverse, List.find?_append,
    List.find?_map, below]
  rfl

theorem opensAt_of_scopeOf {node : Html.Node} {place owner : Place}
    (found : scopeOf node place = some owner) : opensAt node owner = true :=
  List.find?_some found

theorem scopeOf_of_opensAt {node : Html.Node} {place : Place}
    (opening : opensAt node place = true) : scopeOf node place = some place := by
  induction place generalizing node with
  | nil => rw [scopeOf_nil, if_pos opening]
  | cons index rest ih =>
      cases found : node.children[index]? with
      | none => simp [opensAt, found] at opening
      | some child =>
          rw [opensAt_cons rest found] at opening
          rw [scopeOf_cons rest found, ih opening]
          rfl

theorem scopeOf_concat (body : Html.Node) (place : Place) (index : Nat) :
    scopeOf body (place ++ [index]) =
      if opensAt body (place ++ [index]) then some (place ++ [index]) else scopeOf body place := by
  rw [scopeOf, List.inits_append, List.reverse_append]
  simp [scopeOf, List.find?_cons]
  split <;> simp_all

theorem scopes_map_snd (scope last : Nat) (node : Html.Node) :
    (scopes scope last node).1.map (·.2) = node := by
  induction node using Html.Tree.induction_children generalizing scope last with
  | element element children ih =>
      have all : ∀ scope last, ((scopesAll scope last children).1).map (Html.Tree.map (·.2)) =
          children := by
        clear scope last
        induction children with
        | nil => intros; rfl
        | cons child rest restIH =>
            intro scope last
            simp only [scopesAll, List.map_cons]
            rw [ih child List.mem_cons_self,
              restIH fun other member => ih other (List.mem_cons_of_mem _ member)]
      unfold scopes
      split <;> simp only [Html.Tree.map, Html.Tree.mapAll_eq_map, all]
  | text content => rfl
  | comment content => rfl

/-- What numbering the scopes of a tree from `last` on gives: what is outside all of them has the
number of the surrounding scope, and each scope has a number of its own up to `latest`. -/
structure Numbered (scope last latest : Nat) (node : Html.Node) (tree : Html.Tree Scoped) :
    Prop where
  last_le : last ≤ latest
  outside : ∀ place item, tree.labelAt? place = some item → scopeOf node place = none →
    item.1 = scope
  inside : ∀ place item owner, tree.labelAt? place = some item →
    scopeOf node place = some owner → last < item.1 ∧ item.1 ≤ latest ∧
      ∃ head, tree.labelAt? owner = some head ∧ head.1 = item.1
  distinct : ∀ left right item other, opensAt node left = true → opensAt node right = true →
    tree.labelAt? left = some item → tree.labelAt? right = some other → item.1 = other.1 →
    left = right

/-- Siblings take their numbers one after the other. -/
inductive NumberedAll (scope : Nat) :
    Nat → Nat → List Html.Node → List (Html.Tree Scoped) → Prop where
  | nil {last} : NumberedAll scope last last [] []
  | cons {last middle latest node tree nodes trees} :
      Numbered scope last middle node tree → NumberedAll scope middle latest nodes trees →
      NumberedAll scope last latest (node :: nodes) (tree :: trees)

theorem NumberedAll.last_le {scope last latest : Nat} {nodes : List Html.Node}
    {trees : List (Html.Tree Scoped)} (all : NumberedAll scope last latest nodes trees) :
    last ≤ latest := by
  induction all with
  | nil => exact Nat.le_refl _
  | cons head _ ih => exact Nat.le_trans head.last_le ih

/-- Each sibling takes its numbers from those of all. -/
theorem NumberedAll.get {scope last latest index : Nat} {nodes : List Html.Node}
    {trees : List (Html.Tree Scoped)} {tree : Html.Tree Scoped}
    (all : NumberedAll scope last latest nodes trees) (found : trees[index]? = some tree) :
    ∃ node low high, nodes[index]? = some node ∧ last ≤ low ∧ high ≤ latest ∧
      Numbered scope low high node tree := by
  induction all generalizing index with
  | nil => simp at found
  | @cons last middle latest node head nodes trees first rest ih =>
      cases index with
      | zero =>
          obtain rfl : head = tree := by simpa using found
          exact ⟨node, last, middle, rfl, Nat.le_refl _, rest.last_le, first⟩
      | succ index =>
          obtain ⟨other, low, high, selected, lower, upper, numbered⟩ := ih (by simpa using found)
          exact ⟨other, low, high, by simpa using selected,
            Nat.le_trans first.last_le lower, upper, numbered⟩

/-- The numbers of an earlier sibling are below those of a later one. -/
theorem NumberedAll.separate {scope last latest left right : Nat} {nodes : List Html.Node}
    {trees : List (Html.Tree Scoped)} {leftNode rightNode : Html.Node}
    {leftTree rightTree : Html.Tree Scoped} (all : NumberedAll scope last latest nodes trees)
    (before : left < right) (leftFound : nodes[left]? = some leftNode)
    (rightFound : nodes[right]? = some rightNode) (leftTreeFound : trees[left]? = some leftTree)
    (rightTreeFound : trees[right]? = some rightTree) :
    ∃ low middle next high, Numbered scope low middle leftNode leftTree ∧ middle ≤ next ∧
      Numbered scope next high rightNode rightTree := by
  induction all generalizing left right with
  | nil => simp at leftFound
  | @cons last middle latest node head nodes trees first rest ih =>
      cases right with
      | zero => omega
      | succ right =>
          cases left with
          | zero =>
              obtain rfl : node = leftNode := by simpa using leftFound
              obtain rfl : head = leftTree := by simpa using leftTreeFound
              obtain ⟨other, next, high, selected, lower, -, numbered⟩ :=
                rest.get (by simpa using rightTreeFound)
              obtain rfl : other = rightNode := by
                simpa [selected] using rightFound
              exact ⟨last, middle, next, high, first, lower, numbered⟩
          | succ left =>
              have earlier : left < right := by omega
              exact ih earlier (by simpa using leftFound) (by simpa using rightFound)
                (by simpa using leftTreeFound) (by simpa using rightTreeFound)

theorem Numbered.opening_bounds {scope last latest : Nat} {node : Html.Node}
    {tree : Html.Tree Scoped} {place : Place} {item : Scoped}
    (numbered : Numbered scope last latest node tree) (opening : opensAt node place = true)
    (found : tree.labelAt? place = some item) : last < item.1 ∧ item.1 ≤ latest := by
  obtain ⟨lower, upper, -⟩ :=
    numbered.inside place item place found (scopeOf_of_opensAt opening)
  exact ⟨lower, upper⟩

theorem NumberedAll.opening_lt {scope last latest left right : Nat} {nodes : List Html.Node}
    {trees : List (Html.Tree Scoped)} {leftNode rightNode : Html.Node}
    {leftTree rightTree : Html.Tree Scoped} {leftRest rightRest : Place} {item other : Scoped}
    (all : NumberedAll scope last latest nodes trees) (before : left < right)
    (leftFound : nodes[left]? = some leftNode) (rightFound : nodes[right]? = some rightNode)
    (leftTreeFound : trees[left]? = some leftTree)
    (rightTreeFound : trees[right]? = some rightTree)
    (leftOpening : opensAt leftNode leftRest = true)
    (rightOpening : opensAt rightNode rightRest = true)
    (leftLabel : leftTree.labelAt? leftRest = some item)
    (rightLabel : rightTree.labelAt? rightRest = some other) : item.1 < other.1 := by
  obtain ⟨low, middle, next, high, leftNumbered, between, rightNumbered⟩ :=
    all.separate before leftFound rightFound leftTreeFound rightTreeFound
  have leftBound := (leftNumbered.opening_bounds leftOpening leftLabel).2
  have rightBound := (rightNumbered.opening_bounds rightOpening rightLabel).1
  omega

/-- Scopes below different children, or at different places below one, differ in their numbers. -/
theorem NumberedAll.distinct {scope last latest left right : Nat} {nodes : List Html.Node}
    {trees : List (Html.Tree Scoped)} {leftNode rightNode : Html.Node}
    {leftTree rightTree : Html.Tree Scoped} {leftRest rightRest : Place} {item other : Scoped}
    (all : NumberedAll scope last latest nodes trees)
    (leftFound : nodes[left]? = some leftNode) (rightFound : nodes[right]? = some rightNode)
    (leftTreeFound : trees[left]? = some leftTree)
    (rightTreeFound : trees[right]? = some rightTree)
    (leftOpening : opensAt leftNode leftRest = true)
    (rightOpening : opensAt rightNode rightRest = true)
    (leftLabel : leftTree.labelAt? leftRest = some item)
    (rightLabel : rightTree.labelAt? rightRest = some other) (same : item.1 = other.1) :
    left :: leftRest = right :: rightRest := by
  rcases Nat.lt_trichotomy left right with before | rfl | after
  · have smaller := all.opening_lt before leftFound rightFound leftTreeFound rightTreeFound
      leftOpening rightOpening leftLabel rightLabel
    omega
  · obtain ⟨node, low, high, selected, -, -, numbered⟩ := all.get leftTreeFound
    cases selected.symm.trans leftFound
    cases selected.symm.trans rightFound
    cases leftTreeFound.symm.trans rightTreeFound
    rw [numbered.distinct leftRest rightRest item other leftOpening rightOpening leftLabel
      rightLabel same]
  · have smaller := all.opening_lt after rightFound leftFound rightTreeFound leftTreeFound
      rightOpening leftOpening rightLabel leftLabel
    omega

section Children

variable {scope last latest index : Nat} {nodes : List Html.Node}
  {trees : List (Html.Tree Scoped)} {rest : Place} {item : Scoped}

/-- What stands below an element stands in one of its children, with the numbers of that child. -/
theorem NumberedAll.child (all : NumberedAll scope last latest nodes trees) {own : Scoped}
    (found : (Html.Tree.element own trees).labelAt? (index :: rest) = some item) :
    ∃ node tree low high, nodes[index]? = some node ∧ trees[index]? = some tree ∧
      tree.labelAt? rest = some item ∧ last ≤ low ∧ high ≤ latest ∧
      Numbered scope low high node tree := by
  rw [Html.Tree.labelAt?_cons] at found
  obtain ⟨tree, selected, found⟩ := Option.bind_eq_some_iff.mp found
  obtain ⟨node, low, high, source, lower, upper, numbered⟩ := all.get selected
  exact ⟨node, tree, low, high, source, selected, found, lower, upper, numbered⟩

/-- An element in a scope that opens below a child has the number of that scope. -/
theorem NumberedAll.inside (all : NumberedAll scope last latest nodes trees) {own : Scoped}
    {node : Html.Node} {inner : Place} (source : nodes[index]? = some node)
    (found : (Html.Tree.element own trees).labelAt? (index :: rest) = some item)
    (nearest : scopeOf node rest = some inner) :
    last < item.1 ∧ item.1 ≤ latest ∧
      ∃ head, (Html.Tree.element own trees).labelAt? (index :: inner) = some head ∧
        head.1 = item.1 := by
  obtain ⟨other, tree, low, high, otherSource, selected, label, lower, upper, numbered⟩ :=
    all.child found
  obtain rfl : other = node := Option.some.inj (otherSource.symm.trans source)
  obtain ⟨above, within, head, headFound, same⟩ :=
    numbered.inside rest item inner label nearest
  refine ⟨by omega, by omega, head, ?_, same⟩
  rw [Html.Tree.labelAt?_cons, Html.Tree.children, selected]
  exact headFound

/-- A scope that opens below an element has a number after those before it. -/
theorem NumberedAll.opening_bound (all : NumberedAll scope last latest nodes trees)
    {element : Html.Element} {own : Scoped}
    (opening : opensAt (.element element nodes) (index :: rest) = true)
    (found : (Html.Tree.element own trees).labelAt? (index :: rest) = some item) :
    last < item.1 := by
  obtain ⟨node, tree, low, high, source, -, label, lower, -, numbered⟩ := all.child found
  rw [opensAt_cons rest source] at opening
  have above := (numbered.opening_bounds opening label).1
  omega

/-- Scopes at different places below an element differ in their numbers. -/
theorem NumberedAll.distinct_below (all : NumberedAll scope last latest nodes trees)
    {element : Html.Element} {own other : Scoped} {right : Nat} {rightRest : Place}
    (leftOpening : opensAt (.element element nodes) (index :: rest) = true)
    (rightOpening : opensAt (.element element nodes) (right :: rightRest) = true)
    (leftFound : (Html.Tree.element own trees).labelAt? (index :: rest) = some item)
    (rightFound : (Html.Tree.element own trees).labelAt? (right :: rightRest) = some other)
    (same : item.1 = other.1) : index :: rest = right :: rightRest := by
  obtain ⟨_, _, _, _, leftSource, leftTree, leftLabel, -⟩ := all.child leftFound
  obtain ⟨_, _, _, _, rightSource, rightTree, rightLabel, -⟩ := all.child rightFound
  rw [opensAt_cons rest leftSource] at leftOpening
  rw [opensAt_cons rightRest rightSource] at rightOpening
  exact all.distinct leftSource rightSource leftTree rightTree leftOpening rightOpening leftLabel
    rightLabel same

/-- An element that opens a scope takes the next number, and its children number on after it. -/
theorem numbered_opening {element : Html.Element} (opening : opensScope element = true)
    (all : NumberedAll (last + 1) (last + 1) latest nodes trees) :
    Numbered scope last latest (.element element nodes)
      (.element (last + 1, element) trees) := by
  have root : opensAt (.element element nodes) [] = true := opening
  have base := all.last_le
  constructor
  case last_le => omega
  case outside =>
    intro place item found none
    cases place with
    | nil => simp [scopeOf_nil, root] at none
    | cons index rest =>
        obtain ⟨node, -, -, -, source, -⟩ := all.child found
        rw [scopeOf_cons rest source, scopeOf_nil, if_pos root, Option.or_eq_none_iff] at none
        cases none.2
  case inside =>
    intro place item owner found some
    cases place with
    | nil =>
        rw [scopeOf_nil, if_pos root] at some
        cases some
        cases found
        exact ⟨Nat.lt_succ_self last, base, _, rfl, rfl⟩
    | cons index rest =>
        obtain ⟨node, tree, low, high, source, -, label, -, -, numbered⟩ := all.child found
        rw [scopeOf_cons rest source, scopeOf_nil, if_pos root] at some
        cases nearest : scopeOf node rest with
        | some inner =>
            rw [nearest] at some
            cases some
            obtain ⟨above, within, headed⟩ := all.inside source found nearest
            exact ⟨by omega, within, headed⟩
        | none =>
            rw [nearest] at some
            cases some
            have number := numbered.outside rest item label nearest
            exact ⟨by omega, by omega, _, rfl, number.symm⟩
  case distinct =>
    intro left right item other leftOpening rightOpening leftFound rightFound same
    -- The root has a smaller number than every scope below it.
    cases left with
    | nil =>
        cases leftFound
        cases right with
        | nil => rfl
        | cons index rest =>
            have above := all.opening_bound rightOpening rightFound
            exact absurd same (Nat.ne_of_lt above)
    | cons index rest =>
        cases right with
        | nil =>
            cases rightFound
            have above := all.opening_bound leftOpening leftFound
            exact absurd same (Nat.ne_of_gt above)
        | cons index' rest' =>
            exact all.distinct_below leftOpening rightOpening leftFound rightFound same

/-- Any other element has the number of the scope around it, and so have its children. -/
theorem numbered_closed {element : Html.Element} (closed : opensScope element = false)
    (all : NumberedAll scope last latest nodes trees) :
    Numbered scope last latest (.element element nodes) (.element (scope, element) trees) := by
  have root : opensAt (.element element nodes) [] = false := closed
  constructor
  case last_le => exact all.last_le
  case outside =>
    intro place item found none
    cases place with
    | nil =>
        cases found
        rfl
    | cons index rest =>
        obtain ⟨node, tree, low, high, source, -, label, -, -, numbered⟩ := all.child found
        rw [scopeOf_cons rest source, Option.or_eq_none_iff, Option.map_eq_none_iff] at none
        exact numbered.outside rest item label none.1
  case inside =>
    intro place item owner found some
    cases place with
    | nil => simp [scopeOf_nil, root] at some
    | cons index rest =>
        obtain ⟨node, -, -, -, source, -⟩ := all.child found
        rw [scopeOf_cons rest source, scopeOf_nil, root] at some
        cases nearest : scopeOf node rest with
        | some inner =>
            rw [nearest] at some
            cases some
            exact all.inside source found nearest
        | none => simp [nearest] at some
  case distinct =>
    intro left right item other leftOpening rightOpening leftFound rightFound same
    cases left with
    | nil => simp [root] at leftOpening
    | cons index rest =>
        cases right with
        | nil => simp [root] at rightOpening
        | cons index' rest' =>
            exact all.distinct_below leftOpening rightOpening leftFound rightFound same

end Children

/-- A pass over a tree numbers its scopes. -/
theorem scopes_numbered (scope last : Nat) (node : Html.Node) :
    Numbered scope last (scopes scope last node).2 node (scopes scope last node).1 := by
  induction node using Html.Tree.induction_children generalizing scope last with
  | element element children ih =>
      have all : ∀ scope last, NumberedAll scope last (scopesAll scope last children).2 children
          (scopesAll scope last children).1 := by
        clear scope last
        induction children with
        | nil => intros; exact .nil
        | cons child rest restIH =>
            intro scope last
            exact .cons (ih child List.mem_cons_self scope last)
              (restIH (fun other member => ih other (List.mem_cons_of_mem _ member)) scope _)
      unfold scopes
      split
      · next opening => exact numbered_opening opening (all (last + 1) (last + 1))
      · next closed => exact numbered_closed (by simpa using closed) (all scope last)
  | text content =>
      refine ⟨Nat.le_refl _, ?_, ?_, ?_⟩
      all_goals intro place
      all_goals cases place <;> simp [scopes, Html.Tree.label?, Html.Tree.children]
  | comment content =>
      refine ⟨Nat.le_refl _, ?_, ?_, ?_⟩
      all_goals intro place
      all_goals cases place <;> simp [scopes, Html.Tree.label?, Html.Tree.children]

theorem scopesAll_numbered (scope last : Nat) (nodes : List Html.Node) :
    NumberedAll scope last (scopesAll scope last nodes).2 nodes (scopesAll scope last nodes).1 := by
  induction nodes generalizing last with
  | nil => exact .nil
  | cons node rest ih => exact .cons (scopes_numbered scope last node) (ih _)

/-- The number that a scope gets; outside of all scopes it is zero. -/
def scopeNumber (node : Html.Node) : Option Place → Nat
  | none => 0
  | some owner => ((withScopes node).labelAt? owner).elim 0 (·.1)

theorem labelAt?_withScopes_snd (node : Html.Node) (place : Place) :
    ((withScopes node).labelAt? place).map (·.2) = node.labelAt? place := by
  rw [← Html.Tree.labelAt?_map, withScopes, scopes_map_snd]

theorem labelAt?_withScopes (node : Html.Node) (place : Place) :
    (withScopes node).labelAt? place =
      (node.labelAt? place).map fun element =>
        (scopeNumber node (scopeOf node place), element) := by
  have numbered := scopes_numbered 0 0 node
  cases found : (withScopes node).labelAt? place with
  | none => rw [← labelAt?_withScopes_snd, found]; rfl
  | some item =>
      have number : item.1 = scopeNumber node (scopeOf node place) := by
        cases nearest : scopeOf node place with
        | none => exact numbered.outside place item found nearest
        | some owner =>
            obtain ⟨-, -, head, headFound, same⟩ :=
              numbered.inside place item owner found nearest
            have selected : (withScopes node).labelAt? owner = some head := headFound
            rw [scopeNumber, selected]
            exact same.symm
      rw [← labelAt?_withScopes_snd, found, ← number]
      rfl

theorem placed_withScopes (node : Html.Node) :
    (withScopes node).placed =
      node.placed.map fun item =>
        (item.1, (scopeNumber node (scopeOf node item.1), item.2)) := by
  have plain : node.placed = (withScopes node).placed.map fun item => (item.1, item.2.2) := by
    rw [← Html.Tree.placed_map, withScopes, scopes_map_snd]
  rw [plain, List.map_map]
  calc
    (withScopes node).placed = (withScopes node).placed.map id := (List.map_id _).symm
    _ = _ := List.map_congr_left fun item member => by
      have found := Html.Tree.mem_placed.mp member
      rw [labelAt?_withScopes] at found
      obtain ⟨element, -, same⟩ := Option.map_eq_some_iff.mp found
      rw [id, Function.comp_apply, Prod.ext_iff]
      exact ⟨rfl, by rw [← same]⟩

theorem scopeNumber_inj {node : Html.Node} {left right : Option Place}
    (leftOpening : ∀ place ∈ left, opensAt node place = true)
    (rightOpening : ∀ place ∈ right, opensAt node place = true) :
    scopeNumber node left = scopeNumber node right ↔ left = right := by
  have numbered := scopes_numbered 0 0 node
  have head : ∀ {place}, opensAt node place = true → ∃ item,
      (withScopes node).labelAt? place = some item ∧ scopeNumber node (some place) = item.1 ∧
        0 < item.1 := by
    intro place opening
    obtain ⟨element, found, -⟩ := (Option.any_eq_true _ _).mp opening
    have labelled : (withScopes node).labelAt? place =
        some (scopeNumber node (some place), element) := by
      rw [labelAt?_withScopes, found, scopeOf_of_opensAt opening]
      rfl
    exact ⟨_, labelled, rfl, (numbered.opening_bounds opening labelled).1⟩
  constructor
  · intro same
    cases left with
    | none =>
        cases right with
        | none => rfl
        | some owner =>
            obtain ⟨item, -, number, positive⟩ := head (rightOpening owner rfl)
            rw [number] at same
            exact absurd same (Nat.ne_of_lt positive)
    | some owner =>
        obtain ⟨item, found, number, positive⟩ := head (leftOpening owner rfl)
        cases right with
        | none =>
            rw [number] at same
            exact absurd same (Nat.ne_of_gt positive)
        | some other =>
            obtain ⟨item', found', number', -⟩ := head (rightOpening other rfl)
            rw [number, number'] at same
            rw [numbered.distinct owner other item item' (leftOpening owner rfl)
              (rightOpening other rfl) found found' same]
  · rintro rfl
    rfl

end Bindery.Footnote
