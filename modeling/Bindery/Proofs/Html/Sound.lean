import Bindery.Html.Construction.Document
import Bindery.Proofs.Html.FoldedPieces
import Bindery.Proofs.Html.Rules

/-!
# Sound states

While a document is built, every open element is a node of it, and no formatting element is a
part of a table. What is read ends at an end tag with an ordinary name.
-/

set_option autoImplicit false

namespace Bindery.Html

/-! ## Nodes -/

/-- The insides of templates are nodes. -/
structure Arena.Sound (arena : Arena) : Prop where
  document : 0 < arena.slots.size
  inside : ∀ {node slot}, arena.slot? node = some slot →
    ∀ holder ∈ slot.inside, holder < arena.slots.size

/-- What is sound of an arena is sound of the other one. -/
structure Arena.Extends (arena other : Arena) : Prop where
  size : arena.slots.size ≤ other.slots.size
  sound : arena.Sound → other.Sound

namespace Arena

namespace Extends

variable {arena other third : Arena}

theorem refl (arena : Arena) : arena.Extends arena := ⟨Nat.le_refl _, id⟩

theorem trans (first : arena.Extends other) (second : other.Extends third) :
    arena.Extends third :=
  ⟨Nat.le_trans first.size second.size, second.sound ∘ first.sound⟩

theorem change (arena : Arena) (node : Nat) {edit : Slot → Slot}
    (keeps : ∀ slot, ∀ holder ∈ (edit slot).inside,
      holder ∈ slot.inside ∨ holder < arena.slots.size) :
    arena.Extends (arena.change node edit) where
  size := by simp [Arena.change]
  sound sound := by
    have size : (arena.change node edit).slots.size = arena.slots.size := by simp [Arena.change]
    refine ⟨size ▸ sound.document, fun {other slot} found holder inside => ?_⟩
    rw [size]
    rw [slot?, Arena.change, Array.getElem?_modify] at found
    split at found
    · obtain ⟨before, listed, rfl⟩ := Option.map_eq_some_iff.mp found
      exact (keeps before holder inside).elim (sound.inside listed holder) id
    · exact sound.inside found holder inside

theorem add (arena : Arena) (content : Content) : arena.Extends (arena.add content).1 where
  size := by simp [Arena.add]
  sound sound := by
    have size : (arena.add content).1.slots.size = arena.slots.size + 1 := by simp [Arena.add]
    refine ⟨by omega, fun {other slot} found holder inside => ?_⟩
    rw [slot?, Arena.add, Array.getElem?_push] at found
    split at found
    · cases found
      cases inside
    · exact size ▸ Nat.lt_succ_of_lt (sound.inside found holder inside)

theorem setParent (arena : Arena) (node : Nat) (parent : Option Nat) :
    arena.Extends (arena.setParent node parent) := .change _ _ fun _ _ => .inl

theorem append (arena : Arena) (parent node : Nat) : arena.Extends (arena.append parent node) :=
  (setParent _ _ _).trans (.change _ _ fun _ _ => .inl)

theorem detach (arena : Arena) (node : Nat) : arena.Extends (arena.detach node) := by
  unfold Arena.detach
  split
  · exact .refl arena
  · exact (setParent _ _ _).trans (.change _ _ fun _ _ => .inl)

theorem insertAt (arena : Arena) (parent index node : Nat) :
    arena.Extends (arena.insertAt parent index node) :=
  (setParent _ _ _).trans (.change _ _ fun _ _ => .inl)

theorem insertBefore (arena : Arena) (sibling node : Nat) :
    arena.Extends (arena.insertBefore sibling node) := by
  unfold Arena.insertBefore
  split
  · exact .refl arena
  · exact insertAt _ _ _ _

theorem extendText (arena : Arena) (node : Nat) (content : String) :
    arena.Extends (arena.extendText node content) := by
  refine .change _ _ fun slot => ?_
  split <;> exact fun _ => .inl

theorem changeElement (arena : Arena) (node : Nat) (edit : Element → Element) :
    arena.Extends (arena.changeElement node edit) := by
  refine .change _ _ fun slot => ?_
  split <;> exact fun _ => .inl

theorem appendText (arena : Arena) (parent : Nat) (content : String) :
    arena.Extends (arena.appendText parent content) := by
  unfold Arena.appendText
  split
  · split
    · exact extendText _ _ _
    · exact (add _ _).trans (append _ _ _)
  · exact (add _ _).trans (append _ _ _)

theorem insertTextBefore (arena : Arena) (sibling : Nat) (content : String) :
    arena.Extends (arena.insertTextBefore sibling content) := by
  unfold Arena.insertTextBefore
  split
  · exact .refl arena
  · dsimp only
    split
    · exact extendText _ _ _
    · exact (add _ _).trans (insertAt _ _ _ _)

theorem moveChildren (arena : Arena) (source target : Nat) :
    arena.Extends (arena.moveChildren source target) := by
  have moved : ∀ (nodes : List Nat) (start : Arena),
      start.Extends (nodes.foldl (fun arena node => arena.append target node) start) := by
    intro nodes
    induction nodes with
    | nil => exact refl
    | cons node nodes ih => exact fun start => (append start target node).trans (ih _)
  unfold Arena.moveChildren
  rw [← Array.foldl_toList]
  refine .trans ?_ (moved _ _)
  exact .change _ _ fun _ _ => .inl

end Extends

section

variable (arena : Arena) {tag : Element}

theorem addElement_of_other (other : tag.isHtml "template" = false) :
    arena.addElement tag = arena.add (.element tag) := by
  simp [addElement, other]

theorem addElement_of_template (template : tag.isHtml "template" = true) :
    arena.addElement tag =
      (((arena.add (.element tag)).1.add .holder).1.change arena.slots.size
        ({ · with inside := some (arena.slots.size + 1) }), arena.slots.size) := by
  simp [addElement, template, add]

/-- The inside of a template is a new node. -/
theorem extends_addElement (tag : Element) : arena.Extends (arena.addElement tag).1 := by
  cases template : tag.isHtml "template" with
  | true =>
      rw [addElement_of_template arena template]
      refine ((Extends.add arena (.element tag)).trans (.add _ .holder)).trans (.change _ _ ?_)
      rintro slot holder ⟨⟩
      exact .inr (by simp [add])
  | false =>
      rw [addElement_of_other arena template]
      exact .add arena (.element tag)

theorem snd_addElement_lt (tag : Element) :
    (arena.addElement tag).2 < (arena.addElement tag).1.slots.size := by
  cases template : tag.isHtml "template" with
  | true =>
      rw [addElement_of_template arena template]
      simp only [add, change, Array.size_modify, Array.size_push]
      omega
  | false =>
      rw [addElement_of_other arena template]
      simp [add]

end

end Arena

/-! ## Readings -/

theorem reading_readAmpersand (reading : Reading) (text : List Char) :
    (readAmpersand reading text).reading = reading := by
  unfold readAmpersand
  split
  · split <;> rfl
  · rfl

theorem reading_readEndTag (text : List Char) : (readEndTag text).reading = .data := by
  unfold readEndTag
  split <;> rfl

theorem isNamed_readMarkup (sections : Bool) (text : List Char) :
    (readMarkup sections text).reading.isNamed = true := by
  unfold readMarkup readDeclaration
  repeat' split
  all_goals rfl

/-- The name that ends the next reading is that of the last one. -/
theorem Reading.isNamed_next {reading : Reading} (named : reading.isNamed = true)
    (sections : Bool) (text : List Char) :
    (reading.next sections text).reading.isNamed = true := by
  have ended : ∀ rest, (readEndTag rest).reading.isNamed = true := fun rest => by
    rw [reading_readEndTag]
    rfl
  have referred : ∀ rest, (readAmpersand reading rest).reading.isNamed = true := fun rest => by
    rwa [reading_readAmpersand]
  cases reading with
  | data =>
      change (readData sections text).reading.isNamed = true
      unfold readData
      split
      · rfl
      · exact isNamed_readMarkup _ _
      · exact referred _
      · rfl
      · rfl
  | escapable name =>
      change (readEscapable name text).reading.isNamed = true
      unfold readEscapable
      split
      · rfl
      · split
        · exact ended _
        · exact named
      · exact referred _
      · exact named
      · exact named
  | raw name =>
      change (readRaw name text).reading.isNamed = true
      unfold readRaw
      split
      · rfl
      · split
        · exact ended _
        · exact named
      · exact named
      · exact named
  | script =>
      change (readScript text).reading.isNamed = true
      unfold readScript
      split
      · rfl
      · exact ended _
      · rfl
  | «section» =>
      change (readSection text).reading.isNamed = true
      unfold readSection
      split <;> rfl
  | plain =>
      change (readPlain text).reading.isNamed = true
      unfold readPlain
      split <;> rfl

/-! ## States -/

/-- What holds of the parts of every state that a document is read in. -/
structure Soundness (arena : Arena) (opened : List Nat) (head? : Option Nat)
    (formatting : List Formatting) (reading : Reading) : Prop where
  nodes : arena.Sound
  opened : ∀ node ∈ opened, node < arena.slots.size
  head : ∀ node ∈ head?, node < arena.slots.size
  formatting : ∀ {node tag}, .element node tag ∈ formatting → tag.element.fosters = false
  reading : reading.isNamed = true

namespace State

def Sound (state : State) : Prop :=
  Soundness state.arena state.opened state.head? state.formatting state.reading

theorem sound_start : start.Sound where
  nodes := by
    refine ⟨by decide, fun {node slot} found holder inside => ?_⟩
    match node, found with
    | 0, rfl => cases inside
  opened := nofun
  head := nofun
  formatting := nofun
  reading := rfl

@[simp] theorem sound_withMode {state : State} (mode : Mode) :
    (state.withMode mode).Sound ↔ state.Sound := .rfl

@[simp] theorem sound_refuseFrames {state : State} : state.refuseFrames.Sound ↔ state.Sound := .rfl

@[simp] theorem sound_resetMode {state : State} : state.resetMode.Sound ↔ state.Sound := .rfl

namespace Sound

variable {state : State}

theorem withArena (sound : state.Sound) {arena : Arena} (extends_ : state.arena.Extends arena) :
    { state with arena := arena }.Sound where
  nodes := extends_.sound sound.nodes
  opened node member := Nat.lt_of_lt_of_le (sound.opened node member) extends_.size
  head node member := Nat.lt_of_lt_of_le (sound.head node member) extends_.size
  formatting := sound.formatting
  reading := sound.reading

theorem withOpened (sound : state.Sound) {opened : List Nat}
    (inside : ∀ node ∈ opened, node < state.arena.slots.size) :
    { state with opened := opened }.Sound :=
  ⟨sound.nodes, inside, sound.head, sound.formatting, sound.reading⟩

theorem withFormatting (sound : state.Sound) {formatting : List Formatting}
    (inline : ∀ {node tag}, .element node tag ∈ formatting → tag.element.fosters = false) :
    { state with formatting := formatting }.Sound :=
  ⟨sound.nodes, sound.opened, sound.head, inline, sound.reading⟩

theorem withReading (sound : state.Sound) {reading : Reading} (named : reading.isNamed = true) :
    { state with reading := reading }.Sound :=
  ⟨sound.nodes, sound.opened, sound.head, sound.formatting, named⟩

/-! ### Closing elements -/

/-- Open elements that were open before. -/
theorem closing (sound : state.Sound) {opened : List Nat} (sub : opened.Sublist state.opened) :
    { state with opened := opened }.Sound :=
  sound.withOpened fun node member => sound.opened node (sub.mem member)

@[simp] theorem pop (sound : state.Sound) : state.pop.Sound := sound.closing (List.tail_sublist _)

@[simp] theorem popThrough (sound : state.Sound) (wanted : Element → Bool) :
    (state.popThrough wanted).Sound :=
  sound.closing ((List.tail_sublist _).trans (List.dropWhile_sublist _))

@[simp] theorem popThroughName (sound : state.Sound) (name : String) :
    (state.popThroughName name).Sound := sound.popThrough _

@[simp] theorem popDownTo (sound : state.Sound) (wanted : Element → Bool) :
    (state.popDownTo wanted).Sound := sound.closing (List.dropWhile_sublist _)

@[simp] theorem closeImplied (sound : state.Sound) (names : List String) :
    (state.closeImplied names).Sound := sound.closing (List.dropWhile_sublist _)

@[simp] theorem closeOptional (sound : state.Sound) : state.closeOptional.Sound :=
  sound.closeImplied _

@[simp] theorem closeOptionalExcept (sound : state.Sound) (name : String) :
    (state.closeOptionalExcept name).Sound := sound.closeImplied _

@[simp] theorem removeOpen (sound : state.Sound) (node : Nat) : (state.removeOpen node).Sound :=
  sound.closing List.erase_sublist

@[simp] theorem closeParagraph (sound : state.Sound) : state.closeParagraph.Sound :=
  (sound.closeOptionalExcept "p").popThroughName "p"

@[simp] theorem closeParagraphInScope (sound : state.Sound) :
    state.closeParagraphInScope.Sound := by
  unfold State.closeParagraphInScope
  split
  · exact sound.closeParagraph
  · exact sound

@[simp] theorem clearFormatting (sound : state.Sound) : state.clearFormatting.Sound :=
  sound.withFormatting fun member => sound.formatting
    (((List.tail_sublist _).trans (List.dropWhile_sublist _)).mem member)

@[simp] theorem addMarker (sound : state.Sound) : state.addMarker.Sound :=
  sound.withFormatting fun member =>
    sound.formatting ((List.mem_cons.mp member).resolve_left nofun)

@[simp] theorem dropFormatting (sound : state.Sound) (node : Nat) :
    (state.dropFormatting node).Sound :=
  sound.withFormatting fun member => sound.formatting (List.mem_of_mem_filter member)

@[simp] theorem closeCell (sound : state.Sound) : state.closeCell.Sound :=
  (sound.closeOptional.popThrough _).clearFormatting

/-! ### New content -/

theorem push (sound : state.Sound) {node : Nat} (inside : node < state.arena.slots.size) :
    (state.push node).Sound :=
  sound.withOpened (List.forall_mem_cons.mpr ⟨inside, sound.opened⟩)

end Sound

section

variable {state : State}

theorem insertNode_eq (state : State) (place : Place) (node : Nat) :
    state.insertNode place node =
      { state with arena := (state.insertNode place node).arena } := by
  cases place with
  | inside parent => rfl
  | beforeTable table fallback =>
      unfold insertNode
      dsimp only
      split <;> rfl

theorem extends_insertNode (state : State) (place : Place) (node : Nat) :
    state.arena.Extends (state.insertNode place node).arena := by
  cases place with
  | inside parent => exact .append _ _ _
  | beforeTable table fallback =>
      unfold insertNode
      dsimp only
      split
      · exact .insertBefore _ _ _
      · exact .append _ _ _

theorem insertText_eq (state : State) (content : String) :
    state.insertText content = { state with arena := (state.insertText content).arena } := by
  unfold insertText
  split
  · rfl
  · split <;> rfl

theorem extends_insertText (state : State) (content : String) :
    state.arena.Extends (state.insertText content).arena := by
  unfold insertText
  split
  · exact .appendText _ _ _
  · split
    · exact .insertTextBefore _ _ _
    · exact .appendText _ _ _

end

namespace Sound

variable {state : State}

@[simp] theorem insertNode (sound : state.Sound) (place : Place) (node : Nat) :
    (state.insertNode place node).Sound := by
  rw [insertNode_eq]
  exact sound.withArena (extends_insertNode state place node)

@[simp] theorem insertText (sound : state.Sound) (content : String) :
    (state.insertText content).Sound := by
  rw [insertText_eq]
  exact sound.withArena (extends_insertText state content)

@[simp] theorem insertComment (sound : state.Sound) (content : String) :
    (state.insertComment content).Sound :=
  (sound.withArena (.add _ _)).insertNode _ _

@[simp] theorem insertCommentIn (sound : state.Sound) (parent : Nat) (content : String) :
    (state.insertCommentIn parent content).Sound :=
  sound.withArena ((Arena.Extends.add _ _).trans (.append _ _ _))

theorem create (sound : state.Sound) (tag : Element) : (state.create tag).1.Sound :=
  sound.withArena (state.arena.extends_addElement tag)

@[simp] theorem insertClosed (sound : state.Sound) (tag : Element) :
    (state.insertClosed tag).Sound := (sound.create tag).insertNode _ _

theorem insertOpen_lt (state : State) (tag : Element) :
    (state.insertOpen tag).2 < (state.insertOpen tag).1.arena.slots.size := by
  have inside : (state.create tag).2 < (state.create tag).1.arena.slots.size :=
    state.arena.snd_addElement_lt tag
  exact Nat.lt_of_lt_of_le inside (extends_insertNode (state.create tag).1 _ _).size

@[simp] theorem insertOpen (sound : state.Sound) (tag : Element) :
    (state.insertOpen tag).1.Sound :=
  ((sound.create tag).insertNode _ _).push (insertOpen_lt state tag)

@[simp] theorem openTag (sound : state.Sound) (tag : Tag) : (state.openTag tag).Sound :=
  sound.insertOpen _

@[simp] theorem openName (sound : state.Sound) (name : String) : (state.openName name).Sound :=
  sound.insertOpen _

theorem openText (sound : state.Sound) (tag : Tag) {reading : Reading}
    (named : reading.isNamed = true) : (state.openText tag reading).Sound :=
  (sound.openTag tag).withReading named

/-! ### Formatting elements -/

theorem replaceFormatting (sound : state.Sound) (node : Nat) {entries : List Formatting}
    (inline : ∀ {node tag}, .element node tag ∈ entries → tag.element.fosters = false) :
    (state.replaceFormatting node entries).Sound := by
  refine sound.withFormatting fun {node tag} member => ?_
  obtain ⟨entry, listed, member⟩ := List.mem_flatMap.mp member
  split at member
  · exact inline member
  · obtain rfl := List.mem_singleton.mp member
    exact sound.formatting listed

theorem replaceOne (sound : state.Sound) (node copy : Nat) {tag : Tag}
    (inline : tag.element.fosters = false) :
    (state.replaceFormatting node [.element copy tag]).Sound := by
  refine sound.replaceFormatting node fun member => ?_
  cases List.mem_singleton.mp member
  exact inline

theorem replaceTwo (sound : state.Sound) (node copy other : Nat) {tag otherTag : Tag}
    (inline : tag.element.fosters = false) (inlineOther : otherTag.element.fosters = false) :
    (state.replaceFormatting node [.element copy tag, .element other otherTag]).Sound := by
  refine sound.replaceFormatting node fun member => ?_
  rcases List.mem_cons.mp member with same | member
  · cases same
    exact inline
  · cases List.mem_singleton.mp member
    exact inlineOther

theorem recentFormatting (sound : state.Sound) {node : Nat} {tag : Tag}
    (member : (node, tag) ∈ state.recentFormatting) : tag.element.fosters = false :=
  sound.formatting (mem_recentFormatting member)

theorem formattingTag? (sound : state.Sound) {node : Nat} {tag : Tag}
    (found : state.formattingTag? node = some tag) : tag.element.fosters = false := by
  obtain ⟨entry, listed, same⟩ := List.exists_of_findSome?_eq_some found
  cases entry with
  | marker => cases same
  | element other own =>
      dsimp only at same
      split at same
      · cases same
        exact sound.formatting listed
      · cases same

@[simp] theorem reopenFormatting (sound : state.Sound) : state.reopenFormatting.Sound := by
  have lost : ∀ entry ∈ (state.formatting.takeWhile fun entry => !state.settled entry).reverse,
      entry ∈ state.formatting := fun entry member =>
    (List.takeWhile_sublist _).mem (List.mem_reverse.mp member)
  have inline : ∀ {node tag}, Formatting.element node tag ∈ state.formatting →
      tag.element.fosters = false := sound.formatting
  unfold State.reopenFormatting
  dsimp only
  generalize (state.formatting.takeWhile fun entry => !state.settled entry).reverse = entries
    at lost
  generalize state.formatting = formatting at lost inline
  induction entries generalizing state with
  | nil => exact sound
  | cons entry entries ih =>
      obtain ⟨first, others⟩ := List.forall_mem_cons.mp lost
      cases entry with
      | marker => exact ih sound others
      | element node tag =>
          exact ih ((sound.insertOpen tag.element).replaceOne node _ (inline first)) others

theorem openFormatting (sound : state.Sound) {tag : Tag} (inline : tag.element.fosters = false) :
    (state.openFormatting tag).Sound := by
  have opened : ∀ {state : State}, state.Sound →
      ({ (state.insertOpen tag.element).1 with
        formatting := .element (state.insertOpen tag.element).2 tag ::
          (state.insertOpen tag.element).1.formatting } : State).Sound := by
    intro state sound
    refine (sound.insertOpen tag.element).withFormatting fun member => ?_
    rcases List.mem_cons.mp member with same | listed
    · cases same
      exact inline
    · exact (sound.insertOpen tag.element).formatting listed
  unfold State.openFormatting
  dsimp only
  split
  · split
    · exact opened (sound.dropFormatting _)
    · exact opened sound
  · exact opened sound

@[simp] theorem closeOrdinary (sound : state.Sound) (name : String) :
    (state.closeOrdinary name).Sound := by
  unfold State.closeOrdinary
  split
  · exact sound.popThroughName name
  · exact sound

theorem splitBetween {split : Split} (sound : split.state.Sound)
    (inside : ∀ copy ∈ split.copies, copy < split.state.arena.slots.size) (count : Nat)
    (nodes : List Nat) :
    (State.splitBetween count nodes split).state.Sound ∧
      split.state.arena.Extends (State.splitBetween count nodes split).state.arena ∧
      ∀ copy ∈ (State.splitBetween count nodes split).copies,
        copy < (State.splitBetween count nodes split).state.arena.slots.size := by
  induction nodes generalizing count split with
  | nil => exact ⟨sound, .refl _, inside⟩
  | cons node nodes ih =>
      rw [State.splitBetween]
      split
      · exact @ih { split with state := split.state.dropFormatting node }
          (sound.dropFormatting node) inside _
      · split
        · exact ih sound inside _
        · next tag found =>
            have copied := (sound.create tag.element).replaceOne node
              (split.state.create tag.element).2 (sound.formattingTag? found)
            have fresh : (split.state.create tag.element).2 <
                (split.state.create tag.element).1.arena.slots.size :=
              split.state.arena.snd_addElement_lt tag.element
            have created := split.state.arena.extends_addElement tag.element
            have moved := (Arena.Extends.detach (split.state.create tag.element).1.arena
              split.outermost).trans (.append _ (split.state.create tag.element).2 split.outermost)
            obtain ⟨sound, extends_, copies⟩ := @ih
              ⟨{ (split.state.create tag.element).1.replaceFormatting node
                  [.element (split.state.create tag.element).2 tag] with
                  arena := ((split.state.create tag.element).1.arena.detach split.outermost).append
                    (split.state.create tag.element).2 split.outermost },
                split.copies ++ [(split.state.create tag.element).2],
                (split.state.create tag.element).2⟩
              (copied.withArena moved)
              (fun copy member => Nat.lt_of_lt_of_le (by
                rcases List.mem_append.mp member with old | new
                · exact Nat.lt_of_lt_of_le (inside copy old) created.size
                · exact List.mem_singleton.mp new ▸ fresh) moved.size) (count + 1)
            exact ⟨sound, (created.trans moved).trans extends_, copies⟩

/-- A node is moved to another place. -/
theorem moveNode (sound : state.Sound) (node : Nat) (place : State → Place) :
    ∃ moved, moved = State.insertNode { state with arena := state.arena.detach node }
        (place { state with arena := state.arena.detach node }) node ∧
      moved.Sound ∧ state.arena.Extends moved.arena := by
  have detached := Arena.Extends.detach state.arena node
  exact ⟨_, rfl, (sound.withArena detached).insertNode _ _,
    detached.trans (extends_insertNode { state with arena := state.arena.detach node } _ _)⟩

/-- What a block holds goes into a new element in it. -/
theorem fillCopy (sound : state.Sound) (block : Nat) (tag : Element) :
    ∃ arena copy, state.create tag = ({ state with arena := arena }, copy) ∧
      ({ state with arena := (arena.moveChildren block copy).append block copy } : State).Sound ∧
      state.arena.Extends ((arena.moveChildren block copy).append block copy) ∧
      copy < ((arena.moveChildren block copy).append block copy).slots.size := by
  have created := state.arena.extends_addElement tag
  have fresh := state.arena.snd_addElement_lt tag
  have moved := (Arena.Extends.moveChildren (state.arena.addElement tag).1 block
    (state.arena.addElement tag).2).trans (.append _ block (state.arena.addElement tag).2)
  exact ⟨_, _, rfl, sound.withArena (created.trans moved), created.trans moved,
    Nat.lt_of_lt_of_le fresh moved.size⟩

theorem splitAround (sound : state.Sound) {inner between outer : List Nat} {block : Nat}
    (node : Nat) {tag : Tag} (inline : tag.element.fosters = false)
    (inside : ∀ open_ ∈ inner ++ block :: outer, open_ < state.arena.slots.size) :
    (state.splitAround inner block between node tag outer).Sound := by
  obtain ⟨splitSound, extends_, copied⟩ := @splitBetween ⟨state, [], block⟩ sound nofun 0 between
  unfold State.splitAround
  generalize State.splitBetween 0 between ⟨state, [], block⟩ = split at splitSound extends_ copied
  obtain ⟨split, copies, outermost⟩ := split
  dsimp only at splitSound extends_ copied ⊢
  obtain ⟨moved, same, movedSound, further⟩ :=
    splitSound.moveNode outermost fun state => state.placeIn (outer.headD document)
  rw [← same]
  obtain ⟨arena, copy, made, held, filled, fresh⟩ := movedSound.fillCopy block tag.element
  rw [made]
  dsimp only
  generalize (arena.moveChildren block copy).append block copy = filledArena at held filled fresh ⊢
  have size := (further.trans filled).size
  have opened : ∀ open_ ∈ inner ++ copy :: block :: copies ++ outer,
      open_ < filledArena.slots.size := by
    intro open_ member
    have old : open_ ∈ inner ++ block :: outer → open_ < filledArena.slots.size := fun old =>
      Nat.lt_of_lt_of_le (inside open_ old) (Nat.le_trans extends_.size size)
    simp only [List.mem_append, List.mem_cons] at member old
    rcases member with (before | rfl | same | new) | behind
    · exact old (.inl before)
    · exact fresh
    · exact old (.inr (.inl same))
    · exact Nat.lt_of_lt_of_le (copied open_ new) size
    · exact old (.inr (.inr behind))
  cases copies with
  | nil => exact (held.replaceOne node copy inline).withOpened opened
  | cons first others =>
      have dropped := held.dropFormatting node
      dsimp only
      split
      · next firstTag found =>
          exact (dropped.replaceTwo first copy first inline
            (dropped.formattingTag? found)).withOpened opened
      · exact dropped.withOpened opened

theorem splitOnce (sound : state.Sound) (name : String) : (state.splitOnce name).1.Sound := by
  unfold State.splitOnce
  split
  · exact sound.closeOrdinary name
  · next node tag found =>
      have inline := sound.recentFormatting (List.mem_of_find?_eq_some found)
      split
      · exact sound.dropFormatting node
      · split
        · exact sound
        · dsimp only
          split
          · exact (sound.dropFormatting node).closing (List.drop_sublist _ _)
          · split
            · next block between found =>
                refine sound.splitAround node inline fun open_ member => sound.opened open_ ?_
                have above := List.takeWhile_sublist (l := state.opened) (· != node)
                rcases List.mem_append.mp member with inner | outer
                · exact above.mem ((List.take_sublist _ _).mem inner)
                · rcases List.mem_cons.mp outer with rfl | outer
                  · exact above.mem ((List.drop_sublist _ _).mem (found ▸ List.mem_cons_self))
                  · exact (List.drop_sublist _ _).mem outer
            · exact sound

theorem splitRepeatedly (sound : state.Sound) (attempts : Nat) (name : String) :
    (State.splitRepeatedly attempts state name).Sound := by
  induction attempts generalizing state with
  | zero => exact sound
  | succ attempts ih =>
      have once := sound.splitOnce name
      rw [State.splitRepeatedly]
      split
      · next again =>
          rw [again] at once
          exact ih once
      · next done =>
          rw [done] at once
          exact once

@[simp] theorem closeFormatting (sound : state.Sound) (name : String) :
    (state.closeFormatting name).Sound := by
  unfold State.closeFormatting
  split
  · split
    · exact sound.pop
    · exact sound.splitRepeatedly 8 name
  · exact sound

end Sound

end State

end Bindery.Html
