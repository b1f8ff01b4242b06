import Bindery.Html.Writer
import Bindery.Proofs.Html.InsertedText

/-!
# Document order

As long as every new node is put at the end of a document, the nodes stand in it in the order of
their numbers. What is read off at a node is then what the nodes from it up to some number hold.
-/

set_option autoImplicit false

namespace Bindery.Html

/-! ## What is shown -/

/-- A piece of what a document shows. The case of names is not told apart. -/
inductive Item where
  | element (name : List Char) (attributes : List (List Char × String))
  | char (c : Char)
  deriving Repr, DecidableEq

def lowered (text : String) : List Char := text.toList.map Char.toLower

def Element.item (tag : Element) : Item :=
  .element (lowered tag.name)
    (tag.attributes.map fun item => (lowered item.writtenName, item.value))

def textItems (content : String) : List Item := content.toList.map .char

namespace Tree

mutual

/-- The elements and the characters of a tree that are written, in document order: the tags inside
a void element are left out. -/
def items (void : Bool) : Node → List Item
  | .element tag children =>
      (if void then [] else [tag.item]) ++ itemsAll (void || tag.isVoid) children
  | .text content => textItems content
  | .comment _ => []

def itemsAll (void : Bool) : List Node → List Item
  | [] => []
  | tree :: rest => items void tree ++ itemsAll void rest

end

end Tree

def Content.items : Content → List Item
  | .element tag => [tag.item]
  | .text content => textItems content
  | .holder | .comment _ => []

namespace Arena

def itemsOf (arena : Arena) (node : Nat) : List Item :=
  (arena.slot? node).elim [] (·.content.items)

/-- What the nodes with numbers from the one up to the other hold. -/
def span (arena : Arena) (start stop : Nat) : List Item :=
  (List.range' start (stop - start)).flatMap arena.itemsOf

theorem itemsOf_of_element? {arena : Arena} {node : Nat} {tag : Element}
    (named : arena.element? node = some tag) : arena.itemsOf node = [tag.item] := by
  rw [element?_eq_bind] at named
  obtain ⟨⟨content, parent, children, inside⟩, there, own⟩ := Option.bind_eq_some_iff.mp named
  rw [itemsOf, there]
  cases content with
  | element other => cases own; rfl
  | _ => cases own

theorem span_self (arena : Arena) (start : Nat) : arena.span start start = [] := by
  rw [span, Nat.sub_self]
  rfl

theorem span_append (arena : Arena) {start middle stop : Nat} (first : start ≤ middle)
    (last : middle ≤ stop) :
    arena.span start middle ++ arena.span middle stop = arena.span start stop := by
  obtain ⟨count, rfl⟩ := Nat.exists_eq_add_of_le first
  rw [span, span, span, ← List.flatMap_append, Nat.add_sub_cancel_left, List.range'_append_1]
  congr 2
  omega

theorem span_cons (arena : Arena) {start stop : Nat} (before : start < stop) :
    arena.span start stop = arena.itemsOf start ++ arena.span (start + 1) stop := by
  rw [← span_append arena (Nat.le_succ start) before, span, Nat.succ_sub (Nat.le_refl start),
    Nat.sub_self]
  simp

theorem span_congr {arena other : Arena} {start stop : Nat}
    (same : ∀ node, start ≤ node → node < stop → other.itemsOf node = arena.itemsOf node) :
    other.span start stop = arena.span start stop := by
  refine List.flatMap_congr fun node member => ?_
  obtain ⟨behind, before⟩ := List.mem_range'_1.mp member
  exact same node behind (by omega)

end Arena

/-! ## The order of the nodes -/

/-- The numbers from `start` up to `finish` are split among the nodes, each of which has those up
to where it stops. -/
def Tiles (stop : Nat → Nat) : List Nat → Nat → Nat → Prop
  | [], start, finish => start = finish
  | node :: rest, start, finish =>
      node = start ∧ start < stop node ∧ Tiles stop rest (stop node) finish

theorem Tiles.le {stop : Nat → Nat} {nodes : List Nat} {start finish : Nat}
    (tiles : Tiles stop nodes start finish) : start ≤ finish := by
  induction nodes generalizing start with
  | nil => exact Nat.le_of_eq tiles
  | cons node rest ih =>
      obtain ⟨-, behind, rest⟩ := tiles
      exact Nat.le_trans (Nat.le_of_lt behind) (ih rest)

theorem Tiles.of_mem {stop : Nat → Nat} {nodes : List Nat} {start finish : Nat}
    (tiles : Tiles stop nodes start finish) :
    ∀ node ∈ nodes, start ≤ node ∧ node < stop node ∧ stop node ≤ finish := by
  induction nodes generalizing start with
  | nil => nofun
  | cons first rest ih =>
      obtain ⟨rfl, behind, rest⟩ := tiles
      refine List.forall_mem_cons.mpr ⟨⟨Nat.le_refl _, behind, rest.le⟩, fun node member => ?_⟩
      obtain ⟨later, found⟩ := ih rest node member
      exact ⟨by omega, found⟩

theorem Tiles.congr {stop other : Nat → Nat} {nodes : List Nat} {start finish : Nat}
    (tiles : Tiles stop nodes start finish)
    (same : ∀ node, start ≤ node → node < finish → stop node ≤ finish → other node = stop node) :
    Tiles other nodes start finish := by
  induction nodes generalizing start with
  | nil => exact tiles
  | cons node rest ih =>
      obtain ⟨rfl, behind, rest⟩ := tiles
      have last := rest.le
      rw [Tiles, same node (Nat.le_refl _) (by omega) last]
      exact ⟨rfl, behind, ih rest fun other later => same other (by omega)⟩

theorem Tiles.append {stop : Nat → Nat} {nodes : List Nat} {start node : Nat}
    (tiles : Tiles stop nodes start node) (behind : node < stop node) :
    Tiles stop (nodes ++ [node]) start (stop node) := by
  induction nodes generalizing start with
  | nil => exact ⟨tiles.symm, tiles ▸ behind, rfl⟩
  | cons first rest ih =>
      obtain ⟨same, before, rest⟩ := tiles
      exact ⟨same, before, ih rest⟩

/-- If the last of the nodes goes on further, so do all of them together. -/
theorem Tiles.extend {stop other : Nat → Nat} {nodes : List Nat} {start finish further inner : Nat}
    (tiles : Tiles stop nodes start finish) (behind : start ≤ inner) (inside : inner < finish)
    (reaches : ∀ node, node ≤ inner → inner < stop node → finish ≤ stop node)
    (longer : ∀ node, node ≤ inner → stop node = finish → other node = further)
    (kept : ∀ node, node ≤ inner → stop node ≠ finish → other node = stop node)
    (grows : finish < further) : Tiles other nodes start further := by
  induction nodes generalizing start with
  | nil =>
      have same : start = finish := tiles
      omega
  | cons node rest ih =>
      obtain ⟨rfl, before, rest⟩ := tiles
      by_cases within : inner < stop node
      · have last : stop node = finish := Nat.le_antisymm rest.le (reaches node behind within)
        have none : ∀ {nodes}, Tiles stop nodes finish finish → nodes = [] := by
          intro nodes tiles
          cases nodes with
          | nil => rfl
          | cons first others =>
              obtain ⟨rfl, later, others⟩ := tiles
              have := others.le
              omega
        rw [last] at rest
        rw [none rest, Tiles, longer node behind last]
        exact ⟨rfl, by omega, rfl⟩
      · have other : stop node ≠ finish := by
          intro last
          omega
        rw [Tiles, kept node behind other]
        exact ⟨rfl, before, ih rest (by omega)⟩

/-- The nodes stand in the order of their numbers, each with all that stands below it up to where
it stops. Only elements that are not void have children. -/
structure Arena.InOrder (arena : Arena) (stop : Nat → Nat) : Prop where
  stops : ∀ node, node < arena.slots.size → node < stop node ∧ stop node ≤ arena.slots.size
  tiles : ∀ node, node < arena.slots.size →
    Tiles stop (arena.children node).toList (node + 1) (stop node)
  nested : ∀ outer inner, inner < arena.slots.size → outer ≤ inner → inner < stop outer →
    stop inner ≤ stop outer
  leaf : ∀ node, 0 < node → (∀ tag ∈ arena.element? node, tag.isVoid = true) →
    arena.children node = #[]

namespace Arena.InOrder

variable {arena : Arena} {stop : Nat → Nat}

/-- Where the nodes stop once a node has been added below the one. -/
def grown (arena : Arena) (stop : Nat → Nat) (parent node : Nat) : Nat :=
  if node = arena.slots.size ∨ (node ≤ parent ∧ stop node = arena.slots.size) then
    arena.slots.size + 1
  else stop node

theorem grow (ordered : arena.InOrder stop) {parent : Nat} {tag : Element}
    (named : arena.element? parent = some tag) (paired : tag.isVoid = false)
    (last : stop parent = arena.slots.size) (content : Content) :
    (arena.grow parent content).InOrder (grown arena stop parent) := by
  have inside := lt_size_of_element? named
  refine ⟨?stops, ?tiles, ?nested, ?leaf⟩
  case stops =>
    intro node small
    rw [size_grow] at small ⊢
    unfold grown
    split
    · omega
    · have := ordered.stops node (by omega)
      omega
  case tiles =>
    intro node small
    rw [size_grow] at small
    rw [children_grow inside]
    by_cases fresh : node = arena.slots.size
    · rw [if_pos fresh, fresh, grown, if_pos (.inl rfl)]
      rfl
    have tiles := ordered.tiles node (by omega)
    have stops := ordered.stops node (by omega)
    rw [if_neg fresh]
    by_cases same : node = parent
    · rw [if_pos same, same, Array.toList_push, grown, if_pos (.inr ⟨Nat.le_refl _, last⟩)]
      rw [same, last] at tiles
      have before : Tiles (grown arena stop parent) (arena.children parent).toList (parent + 1)
          arena.slots.size :=
        tiles.congr fun child behind small _ => if_neg (by omega)
      have own : grown arena stop parent arena.slots.size = arena.slots.size + 1 :=
        if_pos (.inl rfl)
      exact own ▸ before.append (own ▸ Nat.lt_succ_self _)
    rw [if_neg same]
    by_cases around : node ≤ parent ∧ stop node = arena.slots.size
    · rw [grown, if_pos (.inr around)]
      rw [around.2] at tiles
      refine tiles.extend (by omega) inside (fun child before within => ?_)
        (fun child before ends => if_pos (.inr ⟨before, ends⟩))
        (fun child before other => if_neg (by omega)) (Nat.lt_succ_self _)
      exact last ▸ ordered.nested child parent inside before within
    · rw [grown, if_neg (by omega)]
      exact tiles.congr fun child behind small ends => if_neg (by omega)
  case nested =>
    intro outer inner small before within
    rw [size_grow] at small
    have bound : ∀ node, node < arena.slots.size → stop node ≤ arena.slots.size := fun node small =>
      (ordered.stops node small).2
    by_cases fresh : inner = arena.slots.size
    · rw [fresh] at within
      have := bound outer
      unfold grown at *
      split at within <;> split <;> omega
    · have := ordered.nested outer inner (by omega) before
      have := bound inner (by omega)
      have := bound outer (by omega)
      unfold grown at *
      split at within <;> split <;> omega
  case leaf =>
    intro node positive other
    rw [element?_grow inside] at other
    rw [children_grow inside]
    split
    · rfl
    · next old =>
        rw [if_neg old] at other
        have different : node ≠ parent := by
          rintro rfl
          rw [other tag named] at paired
          cases paired
        rw [if_neg different]
        exact ordered.leaf node positive other

theorem grown_size (parent : Nat) :
    grown arena stop parent arena.slots.size = arena.slots.size + 1 := if_pos (.inl rfl)

theorem grown_of_last {parent node : Nat} (around : node ≤ parent)
    (last : stop node = arena.slots.size) :
    grown arena stop parent node = arena.slots.size + 1 := if_pos (.inr ⟨around, last⟩)

theorem extendText (ordered : arena.InOrder stop) (node : Nat) (content : String) :
    (arena.extendText node content).InOrder stop := by
  obtain ⟨stops, tiles, nested, leaf⟩ := ordered
  constructor <;> simpa only [element?_extendText, children_extendText, size_extendText]

/-- A text at the end of what stands last is the last node. -/
theorem last_text (ordered : arena.InOrder stop) {parent last : Nat}
    (inside : parent < arena.slots.size) (ends : stop parent = arena.slots.size)
    (child : (arena.children parent).back? = some last) (text : arena.isText last = true) :
    last + 1 = arena.slots.size := by
  have tiles := ordered.tiles parent inside
  obtain ⟨others, whole⟩ : ∃ others, (arena.children parent).toList = others ++ [last] := by
    rw [← Array.getLast?_toList] at child
    exact ⟨_, (List.dropLast_append_getLast? last child).symm⟩
  rw [whole, ends] at tiles
  have reaches : ∀ {nodes start}, Tiles stop (nodes ++ [last]) start arena.slots.size →
      start ≤ last ∧ last < stop last ∧ stop last = arena.slots.size := by
    intro nodes
    induction nodes with
    | nil =>
        rintro start ⟨rfl, behind, finish⟩
        exact ⟨Nat.le_refl _, behind, finish⟩
    | cons first rest ih =>
        rintro start ⟨-, behind, rest⟩
        obtain ⟨after, found⟩ := ih rest
        exact ⟨by omega, found⟩
  obtain ⟨behind, before, finish⟩ := reaches tiles
  have small : last < arena.slots.size := by omega
  have other : arena.element? last = none := by
    obtain ⟨content, owner, children, holder, there⟩ := isText_iff.mp text
    rw [element?, there]
  have own := ordered.tiles last small
  rw [ordered.leaf last (by omega) (by simp [other]), finish] at own
  exact own

end Arena.InOrder

/-! ## Adding at the end -/

namespace Arena

/-- A document with more nodes at its end, which show these items. -/
structure Extension (arena next : Arena) (items : List Item) : Prop where
  size : arena.slots.size ≤ next.slots.size
  element? : ∀ node < arena.slots.size, next.element? node = arena.element? node
  document : next.children State.document = arena.children State.document
  items : ∀ start tag, arena.element? start = some tag →
    next.span start next.slots.size = arena.span start arena.slots.size ++ items

namespace Extension

variable {arena next last : Arena} {first second : List Item}

theorem refl (arena : Arena) : arena.Extension arena [] :=
  ⟨Nat.le_refl _, fun _ _ => rfl, rfl, fun _ _ _ => (List.append_nil _).symm⟩

theorem element?_of_some (one : arena.Extension next first) {node : Nat} {tag : Element}
    (named : arena.element? node = some tag) : next.element? node = some tag := by
  rw [one.element? node (lt_size_of_element? named), named]

theorem trans (one : arena.Extension next first) (other : next.Extension last second) :
    arena.Extension last (first ++ second) where
  size := Nat.le_trans one.size other.size
  element? node small := by
    rw [other.element? node (Nat.lt_of_lt_of_le small one.size), one.element? node small]
  document := other.document.trans one.document
  items start tag named := by
    rw [other.items start tag (one.element?_of_some named), one.items start tag named,
      List.append_assoc]

end Extension

theorem itemsOf_grow {arena : Arena} {parent : Nat} (inside : parent < arena.slots.size)
    (content : Content) (node : Nat) :
    (arena.grow parent content).itemsOf node =
      if node = arena.slots.size then content.items else arena.itemsOf node := by
  rw [itemsOf, itemsOf, slot?_grow inside]
  split
  · rfl
  · split
    · cases arena.slot? node <;> rfl
    · rfl

theorem extension_grow {arena : Arena} {parent : Nat} {tag : Element}
    (named : arena.element? parent = some tag) (apart : parent ≠ State.document)
    (content : Content) : arena.Extension (arena.grow parent content) content.items where
  size := by
    rw [size_grow]
    exact Nat.le_succ _
  element? node small := by
    rw [element?_grow (lt_size_of_element? named), if_neg (Nat.ne_of_lt small)]
  document := by
    have inside := lt_size_of_element? named
    rw [children_grow inside, if_neg, if_neg apart.symm]
    exact Nat.ne_of_lt (Nat.lt_of_le_of_lt (Nat.zero_le _) inside)
  items start own first := by
    have inside := lt_size_of_element? named
    have small := Nat.le_of_lt (lt_size_of_element? first)
    have kept : (arena.grow parent content).span start arena.slots.size =
        arena.span start arena.slots.size :=
      span_congr fun node _ before => by
        rw [itemsOf_grow inside, if_neg (Nat.ne_of_lt before)]
    rw [size_grow, ← span_append _ small (Nat.le_succ _), kept, span_cons _ (Nat.lt_succ_self _),
      span_self, List.append_nil, itemsOf_grow inside, if_pos rfl]

theorem itemsOf_extendText {arena : Arena} {node : Nat} {before : String} {parent : Option Nat}
    {children : Array Nat} {inside : Option Nat}
    (text : arena.slot? node = some ⟨.text before, parent, children, inside⟩) (content : String)
    (other : Nat) :
    (arena.extendText node content).itemsOf other =
      if other = node then arena.itemsOf node ++ textItems content else arena.itemsOf other := by
  rw [itemsOf, itemsOf, itemsOf, slot?_extendText]
  split
  · next same =>
      rw [same, text]
      simp [Content.items, textItems]
  · rfl

theorem extension_extendText {arena : Arena} {node : Nat} (text : arena.isText node = true)
    (last : node + 1 = arena.slots.size) (content : String) :
    arena.Extension (arena.extendText node content) (textItems content) where
  size := Nat.le_of_eq (size_extendText content).symm
  element? other _ := element?_extendText content other
  document := children_extendText content _
  items start own first := by
    obtain ⟨before, owner, children, holder, there⟩ := isText_iff.mp text
    have items := itemsOf_extendText there content
    have different : start ≠ node := by
      rintro rfl
      rw [element?, there] at first
      cases first
    have small := lt_size_of_element? first
    have front : (arena.extendText node content).span start node = arena.span start node :=
      span_congr fun other _ before => by rw [items, if_neg (Nat.ne_of_lt before)]
    rw [size_extendText, ← last, ← span_append _ (by omega) (Nat.le_succ node),
      ← span_append arena (by omega) (Nat.le_succ node), front,
      span_cons _ (Nat.lt_succ_self node), span_cons arena (Nat.lt_succ_self node), items,
      if_pos rfl, span_self, span_self, List.append_nil, List.append_nil, List.append_assoc]

end Arena

/-! ## Reading off -/

namespace Arena.InOrder

variable {arena : Arena} {stop : Nat → Nat}

theorem treeWithin (ordered : arena.InOrder stop) {depth node : Nat} (positive : 0 < node)
    (small : node < arena.slots.size) (deep : stop node - node ≤ depth) :
    (arena.treeWithin depth node).elim [] (Tree.items false) = arena.span node (stop node) := by
  induction depth generalizing node with
  | zero =>
      have := (ordered.stops node small).1
      omega
  | succ depth ih =>
      have stops := ordered.stops node small
      have tiles := ordered.tiles node small
      have below : ∀ {nodes start}, node < start → stop node ≤ depth + 1 + node →
          Tiles stop nodes start (stop node) →
          Tree.itemsAll false (nodes.filterMap (arena.treeWithin depth)) =
            arena.span start (stop node) := by
        intro nodes
        induction nodes with
        | nil =>
            rintro start - - rfl
            exact (span_self _ _).symm
        | cons child rest each =>
            rintro start behind enough ⟨rfl, before, rest⟩
            have last := rest.le
            have own : (arena.treeWithin depth child).elim [] (Tree.items false) =
                arena.span child (stop child) := ih (by omega) (by omega) (by omega)
            have others := each (by omega) enough rest
            rw [← span_append _ (Nat.le_of_lt before) last, ← own, ← others]
            cases read : arena.treeWithin depth child with
            | none => rw [List.filterMap_cons_none read]; rfl
            | some tree => rw [List.filterMap_cons_some read]; rfl
      rw [span_cons _ stops.1]
      cases named : arena.element? node with
      | some tag =>
          rw [treeWithin_of_element? named, itemsOf_of_element? named,
            ← below (Nat.lt_succ_self node) (by omega) tiles]
          cases void : tag.isVoid with
          | false => simp [Tree.items, void]
          | true =>
              rw [ordered.leaf node positive (by simp [named, void])]
              simp [Tree.items, Tree.itemsAll]
      | none =>
          rw [ordered.leaf node positive (by simp [named])] at tiles
          have alone : node + 1 = stop node := tiles
          rw [← alone, span_self, List.append_nil, Arena.treeWithin, itemsOf]
          cases there : arena.slot? node with
          | none => rfl
          | some slot =>
              obtain ⟨content, parent, children, inside⟩ := slot
              cases content with
              | element tag =>
                  rw [element?, there] at named
                  cases named
              | _ => rfl

theorem findWithin_eq_none (ordered : arena.InOrder stop) {wanted : Element → Bool}
    (depth : Nat) {node : Nat} (small : node < arena.slots.size)
    (missed : ∀ other, node ≤ other → other < stop node →
      (arena.element? other).any wanted = false) :
    arena.findWithin wanted depth node = none := by
  induction depth generalizing node with
  | zero => rfl
  | succ depth ih =>
      have stops := ordered.stops node small
      rw [Arena.findWithin, missed node (Nat.le_refl _) stops.1, if_neg Bool.noConfusion,
        List.findSome?_eq_none_iff]
      intro child listed
      obtain ⟨behind, before, ends⟩ := (ordered.tiles node small).of_mem child listed
      exact ih (by omega) fun other after within => missed other (by omega) (by omega)

/-- The first of the nodes that satisfies the test is found. -/
theorem findWithin (ordered : arena.InOrder stop) {wanted : Element → Bool} {depth node first : Nat}
    (small : node < arena.slots.size) (deep : stop node - node ≤ depth) (behind : node ≤ first)
    (before : first < stop node) (accepted : (arena.element? first).any wanted = true)
    (missed : ∀ other, node ≤ other → other < first → (arena.element? other).any wanted = false) :
    arena.findWithin wanted depth node = some first := by
  induction depth generalizing node with
  | zero =>
      have := (ordered.stops node small).1
      omega
  | succ depth ih =>
      rw [Arena.findWithin]
      by_cases top : node = first
      · rw [top, if_pos accepted]
      have stops := ordered.stops node small
      rw [missed node (Nat.le_refl _) (by omega), if_neg Bool.noConfusion]
      have below : ∀ {nodes start}, node < start → start ≤ first →
          Tiles stop nodes start (stop node) →
          nodes.findSome? (arena.findWithin wanted depth) = some first := by
        intro nodes
        induction nodes with
        | nil =>
            rintro start - early rfl
            omega
        | cons child rest each =>
            rintro start after early ⟨rfl, own, rest⟩
            have last := rest.le
            rw [List.findSome?_cons]
            by_cases within : first < stop child
            · rw [ih (by omega) (by omega) early within fun other later =>
                missed other (by omega)]
            · rw [ordered.findWithin_eq_none depth (by omega) fun other later sooner =>
                missed other (by omega) (by omega)]
              exact each (by omega) (by omega) rest
      exact below (Nat.lt_succ_self node) (by omega) (ordered.tiles node small)

end Arena.InOrder

/-- The body of a document is the first element of its name, and holds what stands behind it. -/
theorem parseBody?_of_inOrder {html : String} {stop : Nat → Nat} {node root : Nat} {body : Element}
    (ordered : (parseDocument html).InOrder stop)
    (only : (parseDocument html).children State.document = #[root]) (below : 0 < root)
    (behind : root ≤ node) (small : node < (parseDocument html).slots.size)
    (whole : stop root = (parseDocument html).slots.size)
    (last : stop node = (parseDocument html).slots.size)
    (named : (parseDocument html).element? node = some body) (isBody : body.name = "body")
    (first : ∀ other < node, ((parseDocument html).element? other).any (·.name = "body") = false) :
    ∃ children, parseBody? html = some (.element body children) ∧
      Tree.items false (.element body children) =
        (parseDocument html).span node (parseDocument html).slots.size := by
  have found : (parseDocument html).find? (·.name = "body") root = some node := by
    refine ordered.findWithin (by omega) (by omega) behind (by omega) ?_ fun other _ => first other
    rw [named]
    simp [isBody]
  obtain ⟨children, tree⟩ : ∃ children,
      (parseDocument html).tree? node = some (.element body children) := by
    obtain ⟨depth, size⟩ : ∃ depth, (parseDocument html).slots.size = depth + 1 :=
      ⟨(parseDocument html).slots.size - 1, by omega⟩
    rw [Arena.tree?, size, treeWithin_of_element? named]
    exact ⟨_, rfl⟩
  have read : ((parseDocument html).tree? node).elim [] (Tree.items false) =
      (parseDocument html).span node (stop node) := ordered.treeWithin (by omega) small (by omega)
  rw [tree, last] at read
  exact ⟨children, by simp [parseBody?, parse?, only, found, tree], read⟩

end Bindery.Html
