import Bindery.Proofs.Html.Growth
import Bindery.Proofs.Html.SoundSteps

/-!
# Text that is inserted

Text joins the text that stands where it goes, so a text that is inserted in two parts is one
text. No text changes where the next one goes.
-/

set_option autoImplicit false

namespace Bindery.Html

namespace Arena

/-! ## Elements that stay -/

/-- The elements and the insides of templates are the same. -/
structure KeepsElements (arena other : Arena) : Prop where
  element : ∀ node, other.element? node = arena.element? node
  inside : ∀ node, (other.slot? node).bind (·.inside) = (arena.slot? node).bind (·.inside)

section

variable {α : Type} (read : Slot → Option α) (arena : Arena)

theorem bind_slot?_change (node : Nat) {edit : Slot → Slot}
    (keeps : ∀ slot, read (edit slot) = read slot) (other : Nat) :
    ((arena.change node edit).slot? other).bind read = (arena.slot? other).bind read := by
  rw [slot?, change, Array.getElem?_modify]
  split
  · next same =>
      rw [slot?]
      cases arena.slots[other]? with
      | none => rfl
      | some slot => exact keeps slot
  · rfl

theorem bind_slot?_add (content : Content) (unread : read ⟨content, none, #[], none⟩ = none)
    (other : Nat) : ((arena.add content).1.slot? other).bind read =
      (arena.slot? other).bind read := by
  rw [slot?, add, Array.getElem?_push]
  split
  · next same =>
      have outside : arena.slot? other = none := by simp [slot?, same]
      rw [outside]
      exact unread
  · rfl

end

namespace KeepsElements

variable {arena other third : Arena}

theorem refl (arena : Arena) : arena.KeepsElements arena := ⟨fun _ => rfl, fun _ => rfl⟩

theorem trans (first : arena.KeepsElements other) (second : other.KeepsElements third) :
    arena.KeepsElements third :=
  ⟨fun node => (second.element node).trans (first.element node),
    fun node => (second.inside node).trans (first.inside node)⟩

theorem change (arena : Arena) (node : Nat) {edit : Slot → Slot}
    (element : ∀ slot, (edit slot).content.element? = slot.content.element?)
    (inside : ∀ slot, (edit slot).inside = slot.inside) :
    arena.KeepsElements (arena.change node edit) where
  element other := by
    rw [element?_eq_bind, element?_eq_bind]
    exact bind_slot?_change _ arena node element other
  inside := bind_slot?_change _ arena node inside

theorem add (arena : Arena) (content : String) :
    arena.KeepsElements (arena.add (.text content)).1 where
  element other := by
    rw [element?_eq_bind, element?_eq_bind]
    exact bind_slot?_add _ arena _ rfl other
  inside := bind_slot?_add _ arena _ rfl

theorem setParent (arena : Arena) (node : Nat) (parent : Option Nat) :
    arena.KeepsElements (arena.setParent node parent) := .change _ _ (fun _ => rfl) fun _ => rfl

theorem append (arena : Arena) (parent node : Nat) :
    arena.KeepsElements (arena.append parent node) :=
  (setParent _ _ _).trans (.change _ _ (fun _ => rfl) fun _ => rfl)

theorem insertAt (arena : Arena) (parent index node : Nat) :
    arena.KeepsElements (arena.insertAt parent index node) :=
  (setParent _ _ _).trans (.change _ _ (fun _ => rfl) fun _ => rfl)

theorem extendText (arena : Arena) (node : Nat) (content : String) :
    arena.KeepsElements (arena.extendText node content) := by
  refine change _ _ (fun slot => ?_) fun slot => ?_ <;> split <;> rfl

theorem appendText (arena : Arena) (parent : Nat) (content : String) :
    arena.KeepsElements (arena.appendText parent content) := by
  unfold Arena.appendText
  split
  · split
    · exact extendText _ _ _
    · exact (add _ _).trans (append _ _ _)
  · exact (add _ _).trans (append _ _ _)

theorem insertTextBefore (arena : Arena) (sibling : Nat) (content : String) :
    arena.KeepsElements (arena.insertTextBefore sibling content) := by
  unfold Arena.insertTextBefore
  split
  · exact refl arena
  · dsimp -zeta only
    extract_lets before?
    split
    · exact extendText _ _ _
    · exact (add _ _).trans (insertAt _ _ _ _)

end KeepsElements

/-! ## Text in two parts -/

theorem ext_slot? {arena other : Arena} (same : ∀ node, arena.slot? node = other.slot? node) :
    arena = other := by
  cases arena
  cases other
  exact congrArg Arena.mk (Array.ext_getElem? same)

theorem extendText_extendText (arena : Arena) (node : Nat) (one other : String) :
    (arena.extendText node one).extendText node other = arena.extendText node (one ++ other) := by
  refine ext_slot? fun slot => ?_
  rw [slot?_extendText, slot?_extendText, slot?_extendText]
  by_cases same : slot = node
  · rw [if_pos same, if_pos same, if_pos same]
    cases arena.slot? slot with
    | none => rfl
    | some slot =>
        obtain ⟨content, parent, children, inside⟩ := slot
        cases content <;> simp [String.append_assoc]
  · rw [if_neg same, if_neg same, if_neg same]

theorem isText_iff {arena : Arena} {node : Nat} : arena.isText node = true ↔
    ∃ content parent children inside,
      arena.slot? node = some ⟨.text content, parent, children, inside⟩ := by
  unfold isText
  cases found : arena.slot? node with
  | none => simp
  | some slot =>
      obtain ⟨content, parent, children, inside⟩ := slot
      cases content <;> simp

theorem isText_extendText (arena : Arena) (node : Nat) (content : String) (other : Nat) :
    (arena.extendText node content).isText other = arena.isText other := by
  rw [isText, isText, slot?_extendText]
  by_cases same : other = node
  · rw [if_pos same]
    cases arena.slot? other with
    | none => rfl
    | some slot =>
        obtain ⟨content, parent, children, inside⟩ := slot
        cases content <;> rfl
  · rw [if_neg same]

section

variable {arena : Arena} {parent : Nat} (one other : String)

theorem appendText_of_text {last : Nat} (ends : (arena.children parent).back? = some last)
    (text : arena.isText last = true) (content : String) :
    arena.appendText parent content = arena.extendText last content := by
  rw [appendText, ends]
  exact if_pos text

/-- The last child is a text, or every text that is put behind it is a new node. -/
theorem appendText_cases (arena : Arena) (parent : Nat) :
    (∃ last, (arena.children parent).back? = some last ∧ arena.isText last = true) ∨
      ∀ content, arena.appendText parent content = arena.grow parent (.text content) := by
  cases ends : (arena.children parent).back? with
  | none =>
      refine .inr fun content => ?_
      rw [appendText, ends]
      rfl
  | some last =>
      by_cases text : arena.isText last = true
      · exact .inl ⟨last, rfl, text⟩
      · refine .inr fun content => ?_
        rw [appendText, ends]
        exact if_neg text

theorem extendText_grow (inside : parent < arena.slots.size) :
    (arena.grow parent (.text one)).extendText arena.slots.size other =
      arena.grow parent (.text (one ++ other)) := by
  refine ext_slot? fun node => ?_
  rw [slot?_extendText, slot?_grow inside, slot?_grow inside]
  by_cases fresh : node = arena.slots.size
  · rw [if_pos fresh, if_pos fresh, if_pos fresh]
    rfl
  · rw [if_neg fresh, if_neg fresh, if_neg fresh]

/-- Text put at the end of a node joins the text put there before. -/
theorem appendText_appendText (inside : parent < arena.slots.size) :
    (arena.appendText parent one).appendText parent other =
      arena.appendText parent (one ++ other) := by
  -- A text at the end grows twice. Else the first part is a new node, which the second one joins.
  rcases appendText_cases arena parent with ⟨last, ends, text⟩ | fresh
  · have endsNext : ((arena.extendText last one).children parent).back? = some last := by
      rw [children_extendText, ends]
    have textNext : (arena.extendText last one).isText last = true := by
      rw [isText_extendText, text]
    rw [appendText_of_text ends text, appendText_of_text endsNext textNext,
      appendText_of_text ends text, extendText_extendText]
  · have endsNext : ((arena.grow parent (.text one)).children parent).back? =
        some arena.slots.size := by
      rw [children_grow inside, if_neg (Nat.ne_of_lt inside), if_pos rfl, Array.back?_push]
    have textNext : (arena.grow parent (.text one)).isText arena.slots.size = true := by
      rw [isText_iff, slot?_grow inside, if_pos rfl]
      exact ⟨_, _, _, _, rfl⟩
    rw [fresh, fresh, appendText_of_text endsNext textNext, extendText_grow one other inside]

end

/-- A new node stands among the children of another one. -/
def plant (arena : Arena) (parent index : Nat) (content : Content) : Arena :=
  (arena.add content).1.insertAt parent index arena.slots.size

section

variable {arena : Arena} {parent index sibling : Nat}

theorem slot?_plant (inside : parent < arena.slots.size) (content : Content) (node : Nat) :
    (arena.plant parent index content).slot? node =
      if node = arena.slots.size then some ⟨content, some parent, #[], none⟩
      else if node = parent then
        (arena.slot? node).map fun slot =>
          { slot with
            children := slot.children.extract 0 index ++ #[arena.slots.size] ++
              slot.children.extract index slot.children.size }
      else arena.slot? node := by
  simp only [plant, add, insertAt, setParent, change, slot?, Array.getElem?_modify,
    Array.getElem?_push]
  grind

theorem extendText_plant (inside : parent < arena.slots.size) (one other : String) :
    (arena.plant parent index (.text one)).extendText arena.slots.size other =
      arena.plant parent index (.text (one ++ other)) := by
  refine ext_slot? fun node => ?_
  rw [slot?_extendText, slot?_plant inside, slot?_plant inside]
  by_cases fresh : node = arena.slots.size
  · rw [if_pos fresh, if_pos fresh, if_pos fresh]
    rfl
  · rw [if_neg fresh, if_neg fresh, if_neg fresh]

theorem position?_eq_some_iff : arena.position? sibling = some (parent, index) ↔
    arena.parent? sibling = some parent ∧
      (arena.children parent).findIdx? (· == sibling) = some index := by
  simp [position?, Option.bind_eq_some_iff]

theorem parent?_extendText (node : Nat) (content : String) (other : Nat) :
    (arena.extendText node content).parent? other = arena.parent? other := by
  rw [parent?, parent?, slot?_extendText]
  by_cases same : other = node
  · rw [if_pos same]
    cases arena.slot? other with
    | none => rfl
    | some slot =>
        obtain ⟨content, parent, children, inside⟩ := slot
        cases content <;> rfl
  · rw [if_neg same]

theorem position?_extendText (node : Nat) (content : String) (other : Nat) :
    (arena.extendText node content).position? other = arena.position? other := by
  simp only [position?, parent?_extendText, children_extendText]

theorem findIdx?_planted {children : Array Nat} {node : Nat} (other : node ≠ sibling)
    (found : children.findIdx? (· == sibling) = some index) :
    (children.extract 0 index ++ #[node] ++ children.extract index children.size).findIdx?
      (· == sibling) = some (index + 1) := by
  rw [Array.findIdx?_eq_some_iff_getElem] at found ⊢
  obtain ⟨small, here, before⟩ := found
  refine ⟨by simp; omega, by grind, fun earlier bound => ?_⟩
  simp only [Array.getElem_append]
  grind

section Before

variable (position : arena.position? sibling = some (parent, index))

include position

theorem lt_size_of_position : sibling < arena.slots.size ∧ parent < arena.slots.size := by
  obtain ⟨above, found⟩ := position?_eq_some_iff.mp position
  constructor
  · obtain ⟨slot, there, -⟩ := Option.bind_eq_some_iff.mp above
    exact (Array.getElem?_eq_some_iff.mp there).1
  · rw [children_eq_elim] at found
    cases there : arena.slot? parent with
    | none =>
        rw [there] at found
        simp at found
    | some slot => exact (Array.getElem?_eq_some_iff.mp there).1

theorem position?_plant (content : Content) :
    (arena.plant parent index content).position? sibling = some (parent, index + 1) := by
  obtain ⟨small, inside⟩ := lt_size_of_position position
  obtain ⟨above, found⟩ := position?_eq_some_iff.mp position
  obtain ⟨slot, there⟩ : ∃ slot, arena.slot? parent = some slot :=
    ⟨_, Array.getElem?_eq_getElem inside⟩
  rw [children_eq_elim, there] at found
  rw [position?_eq_some_iff, parent?, children_eq_elim, slot?_plant inside, slot?_plant inside,
    if_neg (Nat.ne_of_lt small), if_neg (Nat.ne_of_lt inside), if_pos rfl, there]
  refine ⟨?_, findIdx?_planted (Nat.ne_of_gt small) found⟩
  rw [parent?] at above
  split
  · rw [Option.bind_map]
    exact above
  · exact above

/-- The new node stands just before the sibling. -/
theorem children_plant (content : Content) :
    ((arena.plant parent index content).children parent)[index]? = some arena.slots.size := by
  obtain ⟨-, inside⟩ := lt_size_of_position position
  obtain ⟨-, found⟩ := position?_eq_some_iff.mp position
  obtain ⟨slot, there⟩ : ∃ slot, arena.slot? parent = some slot :=
    ⟨_, Array.getElem?_eq_getElem inside⟩
  rw [children_eq_elim, there] at found
  obtain ⟨small, -⟩ := Array.findIdx?_eq_some_iff_getElem.mp found
  rw [children_eq_elim, slot?_plant inside, if_neg (Nat.ne_of_lt inside), if_pos rfl, there]
  change index < slot.children.size at small
  change (slot.children.extract 0 index ++ #[arena.slots.size] ++
    slot.children.extract index slot.children.size)[index]? = some arena.slots.size
  grind

/-- The text before the sibling, if there is text. -/
theorem insertTextBefore_of_text {before : Nat}
    (text : ((if index = 0 then none else (arena.children parent)[index - 1]?).filter
      arena.isText) = some before) (content : String) :
    arena.insertTextBefore sibling content = arena.extendText before content := by
  simp only [insertTextBefore, position, text]

theorem insertTextBefore_of_other
    (other : ((if index = 0 then none else (arena.children parent)[index - 1]?).filter
      arena.isText) = none) (content : String) :
    arena.insertTextBefore sibling content = arena.plant parent index (.text content) := by
  simp only [insertTextBefore, position, other]
  rfl

end Before

theorem parent?_insertTextBefore (sibling : Nat) (content : String) :
    (arena.insertTextBefore sibling content).parent? sibling = arena.parent? sibling := by
  cases position : arena.position? sibling with
  | none => rw [insertTextBefore, position]
  | some place =>
      obtain ⟨parent, index⟩ := place
      have above := (position?_eq_some_iff.mp position).1
      cases text : ((if index = 0 then none else (arena.children parent)[index - 1]?).filter
          arena.isText) with
      | some before => rw [insertTextBefore_of_text position text, parent?_extendText]
      | none =>
          rw [insertTextBefore_of_other position text, above]
          exact (position?_eq_some_iff.mp (position?_plant position _)).1

theorem parent?_appendText (inside : parent < arena.slots.size) (content : String) {node : Nat}
    (old : node < arena.slots.size) :
    (arena.appendText parent content).parent? node = arena.parent? node := by
  rcases appendText_cases arena parent with ⟨last, ends, text⟩ | fresh
  · rw [appendText_of_text ends text, parent?_extendText]
  · rw [fresh, parent?, parent?, slot?_grow inside, if_neg (Nat.ne_of_lt old)]
    split
    · rw [Option.bind_map]
      rfl
    · rfl

/-- Text put before a node joins the text put there before. -/
theorem insertTextBefore_insertTextBefore (one other : String) :
    (arena.insertTextBefore sibling one).insertTextBefore sibling other =
      arena.insertTextBefore sibling (one ++ other) := by
  cases position : arena.position? sibling with
  | none =>
      have unchanged : ∀ content, arena.insertTextBefore sibling content = arena := by
        intro content
        rw [insertTextBefore, position]
      rw [unchanged, unchanged, unchanged]
  | some place =>
      obtain ⟨parent, index⟩ := place
      cases text : ((if index = 0 then none else (arena.children parent)[index - 1]?).filter
          arena.isText) with
      | some before =>
          rw [insertTextBefore_of_text position text, insertTextBefore_of_text position text]
          have positionNext : (arena.extendText before one).position? sibling =
              some (parent, index) := by
            rw [position?_extendText, position]
          have textNext : (if index = 0 then none
              else ((arena.extendText before one).children parent)[index - 1]?).filter
                (arena.extendText before one).isText = some before := by
            have same : (arena.extendText before one).isText = arena.isText :=
              funext fun node => isText_extendText _ _ _ _
            rw [children_extendText, same, text]
          rw [insertTextBefore_of_text positionNext textNext, extendText_extendText]
      | none =>
          obtain ⟨-, inside⟩ := lt_size_of_position position
          rw [insertTextBefore_of_other position text, insertTextBefore_of_other position text]
          have positionNext := position?_plant position (.text one)
          have textNext : (if index + 1 = 0 then none
              else ((arena.plant parent index (.text one)).children parent)[index + 1 - 1]?).filter
                (arena.plant parent index (.text one)).isText = some arena.slots.size := by
            have isText :
                (arena.plant parent index (.text one)).isText arena.slots.size = true := by
              rw [isText_iff, slot?_plant inside, if_pos rfl]
              exact ⟨_, _, _, _, rfl⟩
            rw [if_neg (Nat.succ_ne_zero index), Nat.add_sub_cancel, children_plant position,
              Option.filter_some, if_pos isText]
          rw [insertTextBefore_of_text positionNext textNext, extendText_plant inside]

end

end Arena

namespace State

variable {state : State}

/-! ## Where text goes -/

section

variable {other : State} (keeps : state.arena.KeepsElements other.arena)

include keeps

theorem element_of_keeps (node : Nat) : other.element node = state.element node := by
  rw [State.element, State.element, Arena.element, Arena.element, keeps.element]

theorem current_of_keeps (opened : other.opened = state.opened) :
    other.current = state.current := by
  unfold State.current
  rw [opened]
  split
  · exact element_of_keeps keeps _
  · rfl

theorem insideOf_of_keeps (node : Nat) : other.insideOf node = state.insideOf node := by
  rw [insideOf, insideOf, element_of_keeps keeps, keeps.inside]

theorem fosterPlace_of_keeps (nodes : List Nat) :
    other.fosterPlace nodes = state.fosterPlace nodes := by
  fun_induction State.fosterPlace state nodes with
  | case1 => rfl
  | case2 => rfl
  | case3 => simp_all [fosterPlace, element_of_keeps keeps, insideOf_of_keeps keeps]
  | case4 => simp_all [fosterPlace, element_of_keeps keeps]
  | case5 => simp_all [fosterPlace, element_of_keeps keeps]

theorem place_of_keeps (opened : other.opened = state.opened)
    (fostering : other.fostering = state.fostering) : other.place = state.place := by
  rw [State.place, State.place, State.current?, State.current?, placeIn, placeIn, opened,
    fostering, element_of_keeps keeps, insideOf_of_keeps keeps, fosterPlace_of_keeps keeps]

end

/-- The nodes that a place names are below the size. -/
def Place.IsBelow (size : Nat) : Place → Prop
  | .inside parent => parent < size
  | .beforeTable table fallback => table < size ∧ fallback < size

namespace Sound

variable (sound : state.Sound)

include sound

theorem insideOf_lt {node : Nat} (small : node < state.arena.slots.size) :
    state.insideOf node < state.arena.slots.size := by
  unfold insideOf
  split
  · cases inside : (state.arena.slot? node).bind (·.inside) with
    | none => exact small
    | some holder =>
        obtain ⟨slot, there, held⟩ := Option.bind_eq_some_iff.mp inside
        exact sound.nodes.inside there holder held
  · exact small

theorem fosterPlace_isBelow (nodes : List Nat)
    (small : ∀ node ∈ nodes, node < state.arena.slots.size) :
    (state.fosterPlace nodes).IsBelow state.arena.slots.size := by
  fun_induction State.fosterPlace state nodes with
  | case1 => exact sound.nodes.document
  | case2 root => exact small root List.mem_cons_self
  | case3 node => exact sound.insideOf_lt (small node List.mem_cons_self)
  | case4 node below => exact ⟨small node (by simp), small below (by simp)⟩
  | case5 node below rest _ _ ih => exact ih fun node member => small node (.tail _ member)

theorem place_isBelow : state.place.IsBelow state.arena.slots.size := by
  have current : state.current?.getD document < state.arena.slots.size := by
    unfold State.current?
    cases opened : state.opened with
    | nil => exact sound.nodes.document
    | cons node rest => exact sound.opened node (opened ▸ List.mem_cons_self)
  unfold State.place placeIn
  split
  · exact sound.fosterPlace_isBelow _ sound.opened
  · exact sound.insideOf_lt current

end Sound

theorem keepsElements_insertText (state : State) (content : String) :
    state.arena.KeepsElements (state.insertText content).arena := by
  unfold insertText
  split
  · exact .appendText _ _ _
  · split
    · exact .insertTextBefore _ _ _
    · exact .appendText _ _ _

theorem place_insertText (state : State) (content : String) :
    (state.insertText content).place = state.place := by
  have frame := insertText_eq state content
  exact place_of_keeps (keepsElements_insertText state content) (by rw [frame]) (by rw [frame])

/-- Text that is inserted in two parts is one text. -/
theorem insertText_insertText (sound : state.Sound) (one other : String) :
    (state.insertText one).insertText other = state.insertText (one ++ other) := by
  have below := sound.place_isBelow
  have next := place_insertText state one
  cases place : state.place with
  | inside parent =>
      rw [place] at below next
      have inserted : ∀ {state : State} content, state.place = .inside parent →
          state.insertText content =
            { state with arena := state.arena.appendText parent content } := by
        intro state content place
        rw [insertText, place]
      rw [inserted one place] at next ⊢
      rw [inserted other next, inserted (one ++ other) place]
      exact congrArg (fun arena => { state with arena := arena })
        (Arena.appendText_appendText one other below)
  | beforeTable table fallback =>
      rw [place] at below next
      have before : ∀ {state : State} content, state.place = .beforeTable table fallback →
          (state.arena.parent? table).isSome = true → state.insertText content =
            { state with arena := state.arena.insertTextBefore table content } := by
        intro state content place stands
        rw [insertText, place]
        exact if_pos stands
      have inserted : ∀ {state : State} content, state.place = .beforeTable table fallback →
          (state.arena.parent? table).isSome = false → state.insertText content =
            { state with arena := state.arena.appendText fallback content } := by
        intro state content place stands
        rw [insertText, place]
        exact if_neg (by simp [stands])
      cases stands : (state.arena.parent? table).isSome with
      | true =>
          rw [before one place stands] at next ⊢
          rw [before other next (by rw [Arena.parent?_insertTextBefore, stands]),
            before (one ++ other) place stands]
          exact congrArg (fun arena => { state with arena := arena })
            (Arena.insertTextBefore_insertTextBefore one other)
      | false =>
          rw [inserted one place stands] at next ⊢
          rw [inserted other next (by rw [Arena.parent?_appendText below.2 one below.1, stands]),
            inserted (one ++ other) place stands]
          exact congrArg (fun arena => { state with arena := arena })
            (Arena.appendText_appendText one other below.2)

end State

end Bindery.Html
