import Bindery.Html.Construction.Document
import Bindery.Proofs.Html.Rules
import Mathlib.Logic.Basic
import Mathlib.Tactic.SplitIfs

/-!
# Contents without carriage returns

What a document holds comes from its tokens and from the names of elements that are supplied. As
long as no token has a carriage return, no node has one.
-/

set_option autoImplicit false

namespace Bindery.Html

/-! ## Contents -/

/-- The text has no carriage return. -/
def Returnless (text : String) : Prop := '\r' ∉ text.toList

instance (text : String) : Decidable (Returnless text) := inferInstanceAs (Decidable (¬ _))

theorem Returnless.append {before after : String} (left : Returnless before)
    (right : Returnless after) : Returnless (before ++ after) := by
  rw [Returnless, String.toList_append, List.mem_append, not_or]
  exact ⟨left, right⟩

theorem returnless_ofList {text : List Char} : Returnless (String.ofList text) ↔ '\r' ∉ text := by
  rw [Returnless, String.toList_ofList]

theorem returnless_drop {text : String} (plain : Returnless text) (count : Nat) :
    Returnless (String.ofList (text.toList.drop count)) :=
  returnless_ofList.mpr fun member => plain (List.mem_of_mem_drop member)

structure Element.Returnless (tag : Element) : Prop where
  name : Html.Returnless tag.name
  attributes : ∀ item ∈ tag.attributes, Html.Returnless item.name ∧ Html.Returnless item.value

structure Tag.Returnless (tag : Tag) : Prop where
  name : Html.Returnless tag.name
  attributes : ∀ item ∈ tag.attributes, Html.Returnless item.1 ∧ Html.Returnless item.2

def Content.Returnless : Content → Prop
  | .holder => True
  | .element tag => tag.Returnless
  | .text content => Html.Returnless content
  | .comment content => Html.Returnless content

def Token.Returnless : Token → Prop
  | .startTag tag => tag.Returnless
  | .comment content => Html.Returnless content
  | .blank content => Html.Returnless content
  | .text content => Html.Returnless content
  | .doctype _ | .endTag _ | .null | .finish => True

theorem Element.returnless_ofName {name : String} (plain : Html.Returnless name) :
    (Element.ofName name []).Returnless := ⟨plain, nofun⟩

theorem Tag.Returnless.element {tag : Tag} (plain : tag.Returnless) : tag.element.Returnless := by
  refine ⟨plain.name, fun item member => ?_⟩
  obtain ⟨⟨name, value⟩, listed, rfl⟩ := List.mem_map.mp member
  exact plain.attributes _ listed

theorem Element.Returnless.addMissing {element : Element} (plain : element.Returnless)
    {attributes : List (String × String)}
    (added : ∀ item ∈ attributes, Html.Returnless item.1 ∧ Html.Returnless item.2) :
    (element.addMissing attributes).Returnless := by
  refine ⟨plain.name, fun item member => ?_⟩
  rcases List.mem_append.mp member with old | new
  · exact plain.attributes item old
  · obtain ⟨⟨name, value⟩, listed, rfl⟩ := List.mem_map.mp new
    exact added _ ((List.mem_filter.mp listed).1)

/-! ### Other vocabularies -/

theorem returnless_respell {spellings : List String}
    (known : ∀ spelling ∈ spellings, Returnless spelling) {name : String}
    (plain : Returnless name) : Returnless (respell spellings name) := by
  unfold respell
  cases found : spellings.find? fun spelling => spelling.toList.map Char.toLower = name.toList with
  | none => exact plain
  | some spelling => exact known _ (List.mem_of_find?_eq_some found)

theorem returnless_foreignAttribute {name value : String} (plain : Returnless name)
    (plainValue : Returnless value) :
    Returnless (foreignAttribute name value).name ∧
      Returnless (foreignAttribute name value).value := by
  have names : Returnless "xmlns" ∧ Returnless "xlink" := by decide
  unfold foreignAttribute
  split_ifs
  · exact ⟨returnless_drop plain 6, plainValue⟩
  · exact ⟨returnless_drop plain 4, plainValue⟩
  · exact ⟨names.1, plainValue⟩
  · exact ⟨names.2, plainValue⟩
  · exact ⟨plain, plainValue⟩

theorem returnless_attributeName (space : Space) {name : String} (plain : Returnless name) :
    Returnless (space.attributeName name) := by
  have svg : ∀ spelling ∈ svgAttributeNames, Returnless spelling := by decide +kernel
  have mathml : Returnless "definitionURL" := by decide
  cases space with
  | html => exact plain
  | svg => exact returnless_respell svg plain
  | mathml => exact iteInduction (fun _ => mathml) fun _ => plain

theorem Tag.Returnless.foreignElement {tag : Tag} (plain : tag.Returnless) (space : Space)
    (respelled : Bool) : (tag.foreignElement space respelled).Returnless := by
  constructor
  · unfold Tag.foreignElement
    dsimp only
    split
    · exact returnless_respell (by decide +kernel) plain.name
    · exact plain.name
  · intro item member
    obtain ⟨⟨name, value⟩, listed, rfl⟩ := List.mem_map.mp member
    obtain ⟨plainName, plainValue⟩ := plain.attributes _ listed
    exact returnless_foreignAttribute (returnless_attributeName space plainName) plainValue

/-! ## Nodes -/

namespace Arena

def Returnless (arena : Arena) : Prop := ∀ slot ∈ arena.slots, slot.content.Returnless

namespace Returnless

variable {arena : Arena} (plain : arena.Returnless)

include plain

theorem change (node : Nat) {edit : Slot → Slot}
    (keeps : ∀ slot, slot.content.Returnless → (edit slot).content.Returnless) :
    (arena.change node edit).Returnless := by
  intro slot member
  obtain ⟨index, found⟩ := Array.getElem?_of_mem member
  rw [Arena.change, Array.getElem?_modify] at found
  split at found
  · obtain ⟨before, listed, rfl⟩ := Option.map_eq_some_iff.mp found
    exact keeps before (plain before (Array.mem_of_getElem? listed))
  · exact plain slot (Array.mem_of_getElem? found)

theorem add (content : Content) (new : content.Returnless) :
    (arena.add content).1.Returnless := by
  intro slot member
  rcases Array.mem_push.mp member with old | rfl
  · exact plain slot old
  · exact new

theorem addElement {tag : Element} (new : tag.Returnless) :
    (arena.addElement tag).1.Returnless := by
  unfold Arena.addElement
  dsimp only
  split
  · exact change (add (add plain (.element tag) new) .holder trivial) _ fun _ => id
  · exact add plain (.element tag) new

theorem setParent (node : Nat) (parent : Option Nat) : (arena.setParent node parent).Returnless :=
  plain.change node fun _ => id

theorem append (parent node : Nat) : (arena.append parent node).Returnless :=
  change (plain.setParent node _) parent fun _ => id

theorem detach (node : Nat) : (arena.detach node).Returnless := by
  unfold Arena.detach
  split
  · exact plain
  · exact change (plain.setParent node _) _ fun _ => id

theorem insertAt (parent index node : Nat) : (arena.insertAt parent index node).Returnless :=
  change (plain.setParent node _) parent fun _ => id

theorem insertBefore (sibling node : Nat) : (arena.insertBefore sibling node).Returnless := by
  unfold Arena.insertBefore
  split
  · exact plain
  · exact plain.insertAt _ _ node

theorem extendText (node : Nat) {content : String} (new : Html.Returnless content) :
    (arena.extendText node content).Returnless := by
  refine plain.change node fun slot before => ?_
  split
  · exact before.append new
  · exact before

theorem changeElement (node : Nat) {edit : Element → Element}
    (keeps : ∀ tag : Element, tag.Returnless → (edit tag).Returnless) :
    (arena.changeElement node edit).Returnless := by
  refine plain.change node fun slot before => ?_
  split
  · exact keeps _ before
  · exact before

theorem appendText (parent : Nat) {content : String} (new : Html.Returnless content) :
    (arena.appendText parent content).Returnless := by
  have added : (arena.add (.text content)).1.Returnless := plain.add (.text content) new
  unfold Arena.appendText
  split
  · split
    · exact plain.extendText _ new
    · exact added.append _ _
  · exact added.append _ _

theorem insertTextBefore (sibling : Nat) {content : String} (new : Html.Returnless content) :
    (arena.insertTextBefore sibling content).Returnless := by
  have added : (arena.add (.text content)).1.Returnless := plain.add (.text content) new
  unfold Arena.insertTextBefore
  split
  · exact plain
  · dsimp only
    split
    · exact plain.extendText _ new
    · exact added.insertAt _ _ _

theorem moveChildren (source target : Nat) : (arena.moveChildren source target).Returnless := by
  have moved : ∀ (nodes : List Nat) {start : Arena}, start.Returnless →
      (nodes.foldl (fun arena node => arena.append target node) start).Returnless := by
    intro nodes
    induction nodes with
    | nil => exact id
    | cons node nodes ih => exact fun start => ih (start.append target node)
  unfold Arena.moveChildren
  rw [← Array.foldl_toList]
  exact moved _ (plain.change source fun _ => id)

end Returnless

theorem Returnless.element? {arena : Arena} (plain : arena.Returnless) {node : Nat} {tag : Element}
    (found : arena.element? node = some tag) : tag.Returnless := by
  unfold Arena.element? at found
  split at found
  · next stands =>
      cases found
      exact plain _ (Array.mem_of_getElem? stands)
  · cases found

end Arena

/-! ## States -/

/-- Everything that the parts of a state may put into the document. -/
structure Unreturned (arena : Arena) (formatting : List Formatting)
    (pending : List (Bool × String)) : Prop where
  nodes : arena.Returnless
  formatting : ∀ {node tag}, .element node tag ∈ formatting → tag.Returnless
  pending : ∀ part ∈ pending, Returnless part.2

namespace State

def Returnless (state : State) : Prop :=
  Unreturned state.arena state.formatting state.pending

theorem returnless_start : start.Returnless where
  nodes slot member := by
    have only : slot = ⟨.holder, none, #[], none⟩ := by
      simpa [start, Arena.add, Arena.empty] using member
    rw [only]
    trivial
  formatting := nofun
  pending := nofun

@[simp] theorem returnless_withMode {state : State} (mode : Mode) :
    (state.withMode mode).Returnless ↔ state.Returnless := .rfl

@[simp] theorem returnless_refuseFrames {state : State} :
    state.refuseFrames.Returnless ↔ state.Returnless := .rfl

@[simp] theorem returnless_resetMode {state : State} :
    state.resetMode.Returnless ↔ state.Returnless := .rfl

@[simp] theorem returnless_pop {state : State} : state.pop.Returnless ↔ state.Returnless := .rfl

@[simp] theorem returnless_push {state : State} (node : Nat) :
    (state.push node).Returnless ↔ state.Returnless := .rfl

@[simp] theorem returnless_popThrough {state : State} (wanted : Element → Bool) :
    (state.popThrough wanted).Returnless ↔ state.Returnless := .rfl

@[simp] theorem returnless_popThroughName {state : State} (name : String) :
    (state.popThroughName name).Returnless ↔ state.Returnless := .rfl

@[simp] theorem returnless_popDownTo {state : State} (wanted : Element → Bool) :
    (state.popDownTo wanted).Returnless ↔ state.Returnless := .rfl

@[simp] theorem returnless_closeImplied {state : State} (names : List String) :
    (state.closeImplied names).Returnless ↔ state.Returnless := .rfl

@[simp] theorem returnless_closeOptional {state : State} :
    state.closeOptional.Returnless ↔ state.Returnless := .rfl

@[simp] theorem returnless_closeOptionalExcept {state : State} (name : String) :
    (state.closeOptionalExcept name).Returnless ↔ state.Returnless := .rfl

@[simp] theorem returnless_removeOpen {state : State} (node : Nat) :
    (state.removeOpen node).Returnless ↔ state.Returnless := .rfl

@[simp] theorem returnless_closeParagraphInScope {state : State} :
    state.closeParagraphInScope.Returnless ↔ state.Returnless := by
  unfold closeParagraphInScope
  split <;> rfl

@[simp] theorem returnless_closeParagraph {state : State} :
    state.closeParagraph.Returnless ↔ state.Returnless := .rfl

@[simp] theorem returnless_closeOrdinary {state : State} (name : String) :
    (state.closeOrdinary name).Returnless ↔ state.Returnless := by
  unfold closeOrdinary
  split <;> rfl

@[simp] theorem returnless_popName {state : State} (name : String) :
    (state.popName name).Returnless ↔ state.Returnless := by
  unfold popName
  split <;> rfl

@[simp] theorem returnless_closeSelect {state : State} :
    state.closeSelect.Returnless ↔ state.Returnless := .rfl

@[simp] theorem returnless_leaveForeign {state : State} :
    state.leaveForeign.Returnless ↔ state.Returnless := .rfl

@[simp] theorem returnless_endOptionGroup {state : State} :
    state.endOptionGroup.Returnless ↔ state.Returnless := by
  unfold endOptionGroup
  dsimp only
  split
  all_goals
    rw [returnless_popName]
    split_ifs <;> simp

namespace Returnless

variable {state : State} (plain : state.Returnless)

include plain

theorem withArena {arena : Arena} (nodes : arena.Returnless) :
    { state with arena := arena }.Returnless := ⟨nodes, plain.formatting, plain.pending⟩

theorem withFormatting {formatting : List Formatting}
    (tags : ∀ {node tag}, .element node tag ∈ formatting → tag.Returnless) :
    { state with formatting := formatting }.Returnless := ⟨plain.nodes, tags, plain.pending⟩

@[simp] theorem clearFormatting : state.clearFormatting.Returnless :=
  plain.withFormatting fun member => plain.formatting
    (((List.tail_sublist _).trans (List.dropWhile_sublist _)).mem member)

@[simp] theorem addMarker : state.addMarker.Returnless :=
  plain.withFormatting fun member =>
    plain.formatting ((List.mem_cons.mp member).resolve_left nofun)

@[simp] theorem dropFormatting (node : Nat) : (state.dropFormatting node).Returnless :=
  plain.withFormatting fun member => plain.formatting ((List.mem_filter.mp member).1)

@[simp] theorem clearThroughName (name : String) :
    (state.closeOptional.popThroughName name).clearFormatting.Returnless :=
  ((returnless_popThroughName _).mpr (returnless_closeOptional.mpr plain)).clearFormatting

@[simp] theorem closeCell : state.closeCell.Returnless :=
  ((returnless_popThrough _).mpr (returnless_closeOptional.mpr plain)).clearFormatting

/-! ### New content -/

@[simp] theorem insertNode (place : Place) (node : Nat) :
    (state.insertNode place node).Returnless := by
  unfold State.insertNode
  split
  · exact plain.withArena (plain.nodes.append _ _)
  · split
    · exact plain.withArena (plain.nodes.insertBefore _ _)
    · exact plain.withArena (plain.nodes.append _ _)

@[simp] theorem insertText {content : String} (new : Html.Returnless content) :
    (state.insertText content).Returnless := by
  unfold State.insertText
  split
  · exact plain.withArena (plain.nodes.appendText _ new)
  · split
    · exact plain.withArena (plain.nodes.insertTextBefore _ new)
    · exact plain.withArena (plain.nodes.appendText _ new)

@[simp] theorem insertComment {content : String} (new : Html.Returnless content) :
    (state.insertComment content).Returnless :=
  insertNode (plain.withArena (plain.nodes.add (.comment content) new)) _ _

@[simp] theorem insertCommentIn (parent : Nat) {content : String}
    (new : Html.Returnless content) : (state.insertCommentIn parent content).Returnless :=
  plain.withArena ((plain.nodes.add (.comment content) new).append _ _)

theorem create {tag : Element} (new : tag.Returnless) : (state.create tag).1.Returnless :=
  plain.withArena (plain.nodes.addElement new)

@[simp] theorem insertClosed {tag : Element} (new : tag.Returnless) :
    (state.insertClosed tag).Returnless := insertNode (plain.create new) _ _

@[simp] theorem insertOpen {tag : Element} (new : tag.Returnless) :
    (state.insertOpen tag).1.Returnless := insertNode (plain.create new) _ _

@[simp] theorem openTag {tag : Tag} (new : tag.Returnless) : (state.openTag tag).Returnless :=
  plain.insertOpen new.element

@[simp] theorem openName {name : String} (new : Html.Returnless name) :
    (state.openName name).Returnless := plain.insertOpen (Element.returnless_ofName new)

@[simp] theorem openText {tag : Tag} (new : tag.Returnless) (reading : Reading) :
    (state.openText tag reading).Returnless := plain.openTag new

/-! ### Formatting elements -/

theorem replaceFormatting (node : Nat) {entries : List Formatting}
    (tags : ∀ {node tag}, .element node tag ∈ entries → tag.Returnless) :
    (state.replaceFormatting node entries).Returnless := by
  refine plain.withFormatting fun {node tag} member => ?_
  obtain ⟨entry, listed, member⟩ := List.mem_flatMap.mp member
  split at member
  · exact tags member
  · obtain rfl := List.mem_singleton.mp member
    exact plain.formatting listed

theorem replaceOne (node copy : Nat) {tag : Tag} (new : tag.Returnless) :
    (state.replaceFormatting node [.element copy tag]).Returnless := by
  refine plain.replaceFormatting node fun member => ?_
  cases List.mem_singleton.mp member
  exact new

theorem formattingTag? {node : Nat} {tag : Tag} (found : state.formattingTag? node = some tag) :
    tag.Returnless := by
  obtain ⟨entry, listed, same⟩ := List.exists_of_findSome?_eq_some found
  cases entry with
  | marker => cases same
  | element other own =>
      dsimp only at same
      split at same
      · cases same
        exact plain.formatting listed
      · cases same

@[simp] theorem reopenFormatting : state.reopenFormatting.Returnless := by
  have lost : ∀ entry ∈ (state.formatting.takeWhile fun entry => !state.settled entry).reverse,
      entry ∈ state.formatting := fun entry member =>
    (List.takeWhile_sublist _).mem (List.mem_reverse.mp member)
  have tags : ∀ {node tag}, Formatting.element node tag ∈ state.formatting → tag.Returnless :=
    plain.formatting
  unfold State.reopenFormatting
  dsimp only
  generalize (state.formatting.takeWhile fun entry => !state.settled entry).reverse = entries
    at lost
  generalize state.formatting = formatting at lost tags
  induction entries generalizing state with
  | nil => exact plain
  | cons entry entries ih =>
      obtain ⟨first, others⟩ := List.forall_mem_cons.mp lost
      cases entry with
      | marker => exact ih plain others
      | element node tag =>
          exact ih ((plain.insertOpen (tags first).element).replaceOne node _ (tags first)) others

@[simp] theorem openFormatting {tag : Tag} (new : tag.Returnless) :
    (state.openFormatting tag).Returnless := by
  have opened : ∀ {state : State}, state.Returnless →
      ({ (state.insertOpen tag.element).1 with
        formatting := .element (state.insertOpen tag.element).2 tag ::
          (state.insertOpen tag.element).1.formatting } : State).Returnless := by
    intro state plain
    refine (plain.insertOpen new.element).withFormatting fun member => ?_
    rcases List.mem_cons.mp member with same | listed
    · cases same
      exact new
    · exact (plain.insertOpen new.element).formatting listed
  unfold State.openFormatting
  dsimp only
  split
  · split
    · exact opened (plain.dropFormatting _)
    · exact opened plain
  · exact opened plain

theorem splitBetween (count : Nat) (nodes copies : List Nat) (outermost : Nat) :
    (State.splitBetween count nodes ⟨state, copies, outermost⟩).state.Returnless := by
  induction nodes generalizing state count copies outermost with
  | nil => exact plain
  | cons node nodes ih =>
      rw [State.splitBetween]
      split
      · exact ih (plain.dropFormatting node) _ _ _
      · split
        · exact ih plain _ _ _
        · next tag found =>
            have tagged := plain.formattingTag? found
            have copied := (plain.create tagged.element).replaceOne node
              (state.create tag.element).2 tagged
            exact ih (copied.withArena ((copied.nodes.detach _).append _ _)) _ _ _

theorem splitAround (inner between outer : List Nat) (block node : Nat) {tag : Tag}
    (new : tag.Returnless) :
    (state.splitAround inner block between node tag outer).Returnless := by
  have between := plain.splitBetween 0 between [] block
  unfold State.splitAround
  generalize State.splitBetween 0 _ ⟨state, [], block⟩ = split at between
  obtain ⟨split, copies, outermost⟩ := split
  have detached := between.withArena (between.nodes.detach outermost)
  have moved := detached.insertNode
    (State.placeIn { split with arena := split.arena.detach outermost } (outer.headD document))
    outermost
  dsimp only at moved ⊢
  generalize State.insertNode _ _ outermost = next at moved ⊢
  have created := moved.create new.element
  generalize next.create tag.element = made at created ⊢
  have filled := created.withArena ((created.nodes.moveChildren block made.2).append block made.2)
  cases copies with
  | nil => exact filled.replaceOne node _ new
  | cons first others =>
      have dropped := filled.dropFormatting node
      dsimp only
      split
      · next firstTag found =>
          refine dropped.replaceFormatting first fun member => ?_
          rcases List.mem_cons.mp member with same | other
          · cases same
            exact new
          · cases List.mem_singleton.mp other
            exact dropped.formattingTag? found
      · exact dropped

theorem splitOnce (name : String) : (state.splitOnce name).1.Returnless := by
  unfold State.splitOnce
  split
  · exact (returnless_closeOrdinary name).mpr plain
  · next node tag found =>
      have tagged := plain.formatting (mem_recentFormatting (List.mem_of_find?_eq_some found))
      split
      · exact plain.dropFormatting node
      · split
        · exact plain
        · dsimp only
          split
          · exact plain.dropFormatting node
          · split
            · exact plain.splitAround _ _ _ _ node tagged
            · exact plain

theorem splitRepeatedly (attempts : Nat) (name : String) :
    (State.splitRepeatedly attempts state name).Returnless := by
  induction attempts generalizing state with
  | zero => exact plain
  | succ attempts ih =>
      have once := plain.splitOnce name
      rw [State.splitRepeatedly]
      split
      · next again =>
          rw [again] at once
          exact ih once
      · next done =>
          rw [done] at once
          exact once

@[simp] theorem closeFormatting (name : String) : (state.closeFormatting name).Returnless := by
  unfold State.closeFormatting
  split
  · split
    · exact plain
    · exact plain.splitRepeatedly 8 name
  · exact plain

/-! ## In the head -/

@[simp] theorem mergeRoot {tag : Tag} (new : tag.Returnless) :
    (state.mergeRoot tag).Returnless := by
  unfold State.mergeRoot
  split
  · split
    · exact plain
    · exact plain.withArena (plain.nodes.changeElement _ fun _ old => old.addMissing new.attributes)
  · exact plain

@[simp] theorem openRoot {tag : Element} (new : tag.Returnless) :
    (state.openRoot tag).Returnless :=
  (plain.create new).withArena ((plain.create new).nodes.append _ _)

@[simp] theorem openHead {tag : Element} (new : tag.Returnless) :
    (state.openHead tag).Returnless := plain.insertOpen new

@[simp] theorem openTemplate {tag : Tag} (new : tag.Returnless) :
    (state.openTemplate tag).Returnless := (plain.openTag new).addMarker

@[simp] theorem closeTemplate : state.closeTemplate.Returnless := by
  unfold State.closeTemplate
  split
  · exact ((returnless_popThroughName _).mpr
      ((returnless_closeImplied _).mpr plain)).clearFormatting
  · exact plain

@[simp] theorem sharedStart {tag : Tag} (new : tag.Returnless) :
    (state.sharedStart tag).Returnless := by
  unfold State.sharedStart
  split_ifs
  · exact plain.insertClosed new.element
  · exact plain.openText new _
  · exact plain.openText new _
  · exact plain.openTemplate new
  · exact plain.openText new _

@[simp] theorem sharedAfterHead {tag : Tag} (new : tag.Returnless) :
    (state.sharedAfterHead tag).Returnless := by
  unfold State.sharedAfterHead
  split
  · next head _ => exact ((returnless_push head).mpr plain).sharedStart new
  · exact plain

end Returnless

end State

/-- The state that a step leaves has no carriage return. -/
def Step.Returnless (step : Step) : Prop := step.state.Returnless

@[simp] theorem Step.returnless_done (state : State) :
    (Step.done state).Returnless ↔ state.Returnless := .rfl

@[simp] theorem Step.returnless_again (state : State) :
    (Step.again state).Returnless ↔ state.Returnless := .rfl

/-- The names of the elements that are supplied. -/
@[simp] theorem returnless_supplied : Returnless "html" ∧ Returnless "head" ∧ Returnless "body" ∧
    Returnless "colgroup" ∧ Returnless "tbody" ∧ Returnless "tr" ∧ Returnless "p" ∧
    Returnless "br" := by
  decide

theorem returnless_image : Returnless "img" := by decide

theorem Tag.Returnless.rename {tag : Tag} (plain : tag.Returnless) {name : String}
    (new : Html.Returnless name) : ({ tag with name := name } : Tag).Returnless :=
  ⟨new, plain.attributes⟩

namespace State.Returnless

variable {state : State} (plain : state.Returnless)

include plain

/-! ## In the body -/

@[simp] theorem mergeBody {tag : Tag} (new : tag.Returnless) :
    (state.mergeBody tag).Returnless := by
  unfold State.mergeBody
  split
  · split
    · exact plain
    · exact plain.withArena (plain.nodes.changeElement _ fun _ old => old.addMissing new.attributes)
  · exact plain

@[simp] theorem replaceBody {tag : Tag} (new : tag.Returnless) :
    (state.replaceBody tag).Returnless := by
  unfold State.replaceBody
  split
  · split
    · next body _ _ =>
        have detached : ({ state with
            arena := state.arena.detach body
            opened := state.opened.drop (state.opened.length - 1) } : State).Returnless :=
          plain.withArena (plain.nodes.detach body)
        exact detached.openTag new
    · exact plain
  · exact plain

@[simp] theorem openBlock {tag : Tag} (new : tag.Returnless) :
    (state.openBlock tag).Returnless :=
  openTag (returnless_closeParagraphInScope.mpr plain) new

@[simp] theorem openHeading {tag : Tag} (new : tag.Returnless) :
    (state.openHeading tag).Returnless := by
  have closed := returnless_closeParagraphInScope.mpr plain
  unfold State.openHeading
  dsimp only
  split
  · exact (returnless_pop.mpr closed).openTag new
  · exact closed.openTag new

@[simp] theorem openForm {tag : Tag} (new : tag.Returnless) : (state.openForm tag).Returnless := by
  have opened := insertOpen (returnless_closeParagraphInScope.mpr plain) new.element
  unfold State.openForm
  dsimp only
  split_ifs <;> first | exact plain | exact opened

@[simp] theorem closeForm : state.closeForm.Returnless := by
  unfold State.closeForm
  split_ifs
  · exact plain
  · exact plain
  · split
    · exact plain
    · exact iteInduction (fun _ => plain) fun _ => plain

@[simp] theorem openItem {tag : Tag} (new : tag.Returnless) : (state.openItem tag).Returnless := by
  unfold State.openItem
  dsimp only
  split
  · next name _ =>
      have closed := (returnless_closeOptionalExcept name).mpr (returnless_refuseFrames.mpr plain)
      exact ((returnless_popThroughName name).mpr closed).openBlock new
  · exact (returnless_refuseFrames.mpr plain).openBlock new

@[simp] theorem openButton {tag : Tag} (new : tag.Returnless) :
    (state.openButton tag).Returnless := by
  have closed : (if state.nameInScope Element.boundsScope "button" then
      state.closeOptional.popThroughName "button" else state).Returnless :=
    iteInduction (fun _ => plain) fun _ => plain
  exact closed.reopenFormatting.openTag new

@[simp] theorem openLink {tag : Tag} (new : tag.Returnless) : (state.openLink tag).Returnless := by
  unfold State.openLink
  dsimp only
  split
  · next node tag _ =>
      have closed := (plain.closeFormatting "a").dropFormatting node
      exact (reopenFormatting (returnless_removeOpen node |>.mpr closed)).openFormatting new
  · exact plain.reopenFormatting.openFormatting new

@[simp] theorem openUnbroken {tag : Tag} (new : tag.Returnless) :
    (state.openUnbroken tag).Returnless := by
  unfold State.openUnbroken
  dsimp only
  split
  · exact (plain.reopenFormatting.closeFormatting "nobr").reopenFormatting.openFormatting new
  · exact plain.reopenFormatting.openFormatting new

@[simp] theorem openTable {tag : Tag} (new : tag.Returnless) :
    (state.openTable tag).Returnless := by
  have closed : (if state.lenient then state else state.closeParagraphInScope).Returnless :=
    iteInduction (fun _ => plain) fun _ => returnless_closeParagraphInScope.mpr plain
  exact closed.openTag new

@[simp] theorem openSelect {tag : Tag} (new : tag.Returnless) :
    (state.openSelect tag).Returnless := plain.reopenFormatting.openTag new

@[simp] theorem openOption {tag : Tag} (new : tag.Returnless) :
    (state.openOption tag).Returnless := by
  have closed : (if state.current.isHtml "option" then state.pop else state).Returnless :=
    iteInduction (fun _ => plain) fun _ => plain
  exact closed.reopenFormatting.openTag new

@[simp] theorem openRuby {tag : Tag} (new : tag.Returnless) : (state.openRuby tag).Returnless := by
  unfold State.openRuby
  dsimp only
  split_ifs
  · exact (returnless_closeOptional.mpr plain).openTag new
  · exact ((returnless_closeOptionalExcept _).mpr plain).openTag new
  · exact plain.openTag new

@[simp] theorem insertForeign {tag : Tag} (new : tag.Returnless) (space : Space)
    (respelled : Bool) : (state.insertForeign tag space respelled).Returnless := by
  have element := new.foreignElement space respelled
  exact iteInduction (fun _ => plain.insertClosed element) fun _ => plain.insertOpen element

@[simp] theorem startInBody {tag : Tag} (new : tag.Returnless) :
    (state.startInBody tag).Returnless := by
  have paragraph := returnless_closeParagraphInScope.mpr plain
  have reopened := plain.reopenFormatting
  have inserted := reopened.insertClosed new.element
  have image := reopened.insertClosed (new.rename returnless_image).element
  have refused : state.refuseFrames.Returnless := plain
  have verbatim : state.closeParagraphInScope.reopenFormatting.refuseFrames.Returnless :=
    paragraph.reopenFormatting
  unfold State.startInBody
  dsimp only
  refine iteInduction (fun _ => plain.mergeRoot new) fun _ => ?_
  refine iteInduction (fun _ => plain.sharedStart new) fun _ => ?_
  refine iteInduction (fun _ => plain.mergeBody new) fun _ => ?_
  refine iteInduction (fun _ => plain.replaceBody new) fun _ => ?_
  refine iteInduction (fun _ => plain.openBlock new) fun _ => ?_
  refine iteInduction (fun _ => plain.openHeading new) fun _ => ?_
  refine iteInduction (fun _ => plain.openBlock new) fun _ => ?_
  refine iteInduction (fun _ => plain.openForm new) fun _ => ?_
  refine iteInduction (fun _ => plain.openItem new) fun _ => ?_
  refine iteInduction (fun _ => plain.openBlock new) fun _ => ?_
  refine iteInduction (fun _ => plain.openButton new) fun _ => ?_
  refine iteInduction (fun _ => plain.openLink new) fun _ => ?_
  refine iteInduction (fun _ => reopened.openFormatting new) fun _ => ?_
  refine iteInduction (fun _ => plain.openUnbroken new) fun _ => ?_
  refine iteInduction (fun _ => (reopened.openTag new).addMarker) fun _ => ?_
  refine iteInduction (fun _ => plain.openTable new) fun _ => ?_
  refine iteInduction (fun _ => image) fun _ => ?_
  refine iteInduction (fun _ => inserted) fun _ => ?_
  refine iteInduction (fun _ => iteInduction (fun _ => inserted) fun _ => inserted) fun _ => ?_
  refine iteInduction (fun _ => plain.insertClosed new.element) fun _ => ?_
  refine iteInduction (fun _ => paragraph.insertClosed new.element) fun _ => ?_
  refine iteInduction (fun _ => refused.openText new (.escapable tag.name)) fun _ => ?_
  refine iteInduction (fun _ => verbatim.openText new _) fun _ => ?_
  refine iteInduction (fun _ => refused.openText new _) fun _ => ?_
  refine iteInduction (fun _ => plain.openText new _) fun _ => ?_
  refine iteInduction (fun _ => plain.openSelect new) fun _ => ?_
  refine iteInduction (fun _ => plain.openOption new) fun _ => ?_
  refine iteInduction (fun _ => plain.openRuby new) fun _ => ?_
  refine iteInduction (fun _ => plain.insertForeign new _ _) fun _ => ?_
  refine iteInduction (fun _ => plain.insertForeign new _ _) fun _ => ?_
  exact iteInduction (fun _ => plain) fun _ => reopened.openTag new

@[simp] theorem endInBody (tag : Tag) : (state.endInBody tag).Returnless := by
  obtain ⟨-, -, -, -, -, -, paragraph, break_⟩ := returnless_supplied
  unfold State.endInBody
  dsimp only
  refine iteInduction (fun _ => plain.closeTemplate) fun _ => ?_
  refine iteInduction (fun _ => iteInduction (fun _ => plain) fun _ => plain) fun _ => ?_
  refine iteInduction (fun _ => plain.closeForm) fun _ => ?_
  refine iteInduction
    (fun _ => returnless_closeParagraph.mpr
      (iteInduction (fun _ => plain) fun _ => plain.openName paragraph)) fun _ => ?_
  refine iteInduction (fun _ => iteInduction (fun _ => plain) fun _ => plain) fun _ => ?_
  refine iteInduction (fun _ => iteInduction (fun _ => plain) fun _ => plain) fun _ => ?_
  refine iteInduction (fun _ => iteInduction (fun _ => plain) fun _ => plain) fun _ => ?_
  refine iteInduction (fun _ => plain.closeFormatting _) fun _ => ?_
  refine iteInduction
    (fun _ => iteInduction
      (fun _ => plain.clearThroughName tag.name) fun _ => plain) fun _ => ?_
  refine iteInduction (fun named => ?_) fun _ => (returnless_closeOrdinary _).mpr plain
  exact plain.reopenFormatting.insertClosed (Element.returnless_ofName (named ▸ break_))

@[simp] theorem finishInTemplate : state.finishInTemplate.Returnless := by
  unfold State.finishInTemplate
  split
  · exact ((returnless_popThroughName _).mpr plain).clearFormatting
  · exact plain

@[simp] theorem finishInBody : state.finishInBody.Returnless := by
  unfold State.finishInBody
  split
  · exact plain
  · exact plain.finishInTemplate

@[simp] theorem inBody {token : Token} (new : token.Returnless) :
    (state.inBody token).Returnless := by
  cases token with
  | blank content => exact plain.reopenFormatting.insertText new
  | text content => exact insertText (returnless_refuseFrames.mpr plain.reopenFormatting) new
  | comment content => exact plain.insertComment new
  | startTag tag => exact plain.startInBody new
  | endTag tag =>
      simp only [State.inBody]
      split_ifs <;> simp [plain]
  | finish => exact plain.finishInBody
  | _ => exact plain

/-! ## Before the body -/

theorem initial (token : Token) : (state.initial token).Returnless := by
  cases token <;> exact plain

theorem beforeHtml {token : Token} (new : token.Returnless) :
    (state.beforeHtml token).Returnless := by
  have root := plain.openRoot (Element.returnless_ofName returnless_supplied.1)
  cases token with
  | startTag tag =>
      exact iteInduction (fun _ => plain.openRoot (Tag.Returnless.element new)) fun _ => root
  | endTag tag => exact iteInduction (fun _ => root) fun _ => plain
  | blank _ | comment _ => exact plain
  | _ => exact root

theorem beforeHead {token : Token} (new : token.Returnless) :
    (state.beforeHead token).Returnless := by
  have head := plain.openHead (Element.returnless_ofName returnless_supplied.2.1)
  cases token with
  | startTag tag =>
      exact iteInduction (fun _ => plain.mergeRoot new) fun _ =>
        iteInduction (fun _ => plain.openHead (Tag.Returnless.element new)) fun _ => head
  | endTag tag => exact iteInduction (fun _ => head) fun _ => plain
  | comment content => exact plain.insertComment new
  | blank _ => exact plain
  | _ => exact head

theorem inHead {token : Token} (new : token.Returnless) : (state.inHead token).Returnless := by
  cases token with
  | startTag tag =>
      have new : tag.Returnless := new
      simp only [State.inHead]
      split_ifs <;> simp [plain, new]
  | endTag tag =>
      simp only [State.inHead]
      split_ifs <;> simp [plain]
  | comment content => exact plain.insertComment new
  | blank content => exact plain.insertText new
  | _ => exact plain

theorem afterHead {token : Token} (new : token.Returnless) :
    (state.afterHead token).Returnless := by
  have body := plain.openName returnless_supplied.2.2.1
  cases token with
  | startTag tag =>
      have new : tag.Returnless := new
      simp only [State.afterHead]
      split_ifs <;> simp [plain, new, body]
  | endTag tag =>
      simp only [State.afterHead]
      split_ifs <;> simp [plain, body]
  | comment content => exact plain.insertComment new
  | blank content => exact plain.insertText new
  | _ => exact body

/-! ## In tables -/

@[simp] theorem inBodyFostering {token : Token} (new : token.Returnless) :
    (state.inBodyFostering token).Returnless := by
  have fostered : ({ state with fostering := true } : State).Returnless := plain
  have looked := fostered.inBody new
  unfold State.inBodyFostering
  generalize State.inBody _ token = step at looked
  cases step <;> exact looked

@[simp] theorem tableText {token : Token} (new : token.Returnless) :
    (state.tableText token).Returnless := by
  unfold State.tableText
  split
  · exact plain
  · exact plain.inBodyFostering new

theorem foldl {next : State → Bool × String → State} {parts : List (Bool × String)}
    (new : ∀ part ∈ parts, Html.Returnless part.2)
    (keeps : ∀ {state : State} (part : Bool × String), state.Returnless →
      Html.Returnless part.2 → (next state part).Returnless) :
    (parts.foldl next state).Returnless := by
  induction parts generalizing state with
  | nil => exact plain
  | cons part parts ih =>
      obtain ⟨first, others⟩ := List.forall_mem_cons.mp new
      exact ih (keeps part plain first) others

@[simp] theorem insertPending : state.insertPending.Returnless := by
  have emptied : ({ state with pending := [] } : State).Returnless :=
    ⟨plain.nodes, plain.formatting, nofun⟩
  have new : ∀ part ∈ state.pending.reverse, Html.Returnless part.2 := fun part member =>
    plain.pending part (List.mem_reverse.mp member)
  unfold State.insertPending
  dsimp only
  split
  · exact emptied.foldl new fun part plain content => plain.insertText content
  · refine emptied.foldl new fun part plain content => plain.inBodyFostering ?_
    split <;> exact content

theorem inTableText {token : Token} (new : token.Returnless) :
    (state.inTableText token).Returnless := by
  have kept : ∀ {content : String} (blank : Bool), Html.Returnless content →
      ({ state with pending := (blank, content) :: state.pending } : State).Returnless :=
    fun blank new => ⟨plain.nodes, plain.formatting, List.forall_mem_cons.mpr ⟨new, plain.pending⟩⟩
  cases token with
  | blank content => exact kept true new
  | text content => exact kept false new
  | null => exact plain
  | _ => exact plain.insertPending

@[simp] theorem startInTable {tag : Tag} (new : tag.Returnless) :
    (state.startInTable tag).Returnless := by
  obtain ⟨-, -, -, columns, sections, -⟩ := returnless_supplied
  have clear : (state.popDownTo Element.boundsTable).Returnless := plain
  have marked := clear.addMarker.openTag new
  have opened := clear.openTag new
  have form := plain.insertOpen new.element
  have group := clear.openName columns
  have rows := clear.openName sections
  unfold State.startInTable
  dsimp only
  refine iteInduction (fun _ => marked) fun _ => ?_
  refine iteInduction (fun _ => opened) fun _ => ?_
  refine iteInduction (fun _ => group) fun _ => ?_
  refine iteInduction (fun _ => opened) fun _ => ?_
  refine iteInduction (fun _ => rows) fun _ => ?_
  refine iteInduction (fun _ => iteInduction (fun _ => plain) fun _ => plain) fun _ => ?_
  refine iteInduction (fun _ => plain.sharedStart new) fun _ => ?_
  refine iteInduction (fun _ => plain.insertClosed new.element) fun _ => ?_
  refine iteInduction (fun _ => iteInduction (fun _ => plain) fun _ => form) fun _ => ?_
  exact plain.inBodyFostering new

@[simp] theorem inTable {token : Token} (new : token.Returnless) :
    (state.inTable token).Returnless := by
  cases token with
  | endTag tag =>
      simp only [State.inTable]
      split_ifs <;> simp [plain, new]
  | startTag tag => exact plain.startInTable new
  | comment content => exact plain.insertComment new
  | blank content | text content | null => exact plain.tableText new
  | finish => exact plain.finishInBody
  | doctype _ => exact plain

theorem inCaption {token : Token} (new : token.Returnless) :
    (state.inCaption token).Returnless := by
  have closed := plain.clearThroughName "caption"
  cases token <;> simp only [State.inCaption] <;> try split_ifs
  all_goals simp [plain, closed, new]

theorem inColumns {token : Token} (new : token.Returnless) :
    (state.inColumns token).Returnless := by
  cases token with
  | startTag tag =>
      have new : tag.Returnless := new
      simp only [State.inColumns]
      split_ifs <;> simp [plain, new, new.element]
  | comment content => exact plain.insertComment new
  | blank content => exact plain.insertText new
  | _ =>
      simp only [State.inColumns]
      try split_ifs
      all_goals simp [plain]

theorem inTableBody {token : Token} (new : token.Returnless) :
    (state.inTableBody token).Returnless := by
  have clear : (state.popDownTo Element.isSectionContext).Returnless := plain
  cases token with
  | startTag tag =>
      have newTag : tag.Returnless := new
      simp only [State.inTableBody]
      split_ifs <;> simp [plain, newTag, clear, new]
  | _ =>
      simp only [State.inTableBody]
      try split_ifs
      all_goals simp [plain, clear, new]

theorem inRow {token : Token} (new : token.Returnless) : (state.inRow token).Returnless := by
  have clear : (state.popDownTo Element.isRowContext).Returnless := plain
  cases token with
  | startTag tag =>
      have newTag : tag.Returnless := new
      have opened : (((state.popDownTo Element.isRowContext).openTag tag).withMode
          .inCell).addMarker.Returnless := addMarker (clear.openTag newTag)
      simp only [State.inRow]
      split_ifs <;> simp [plain, opened, new]
  | _ =>
      simp only [State.inRow]
      try split_ifs
      all_goals simp [plain, new]

theorem inCell {token : Token} (new : token.Returnless) : (state.inCell token).Returnless := by
  have closed := plain.clearThroughName
  cases token <;> simp only [State.inCell] <;> try split_ifs
  all_goals simp [plain, closed, new]

/-! ## In selections and templates -/

@[simp] theorem inSelect {token : Token} (new : token.Returnless) :
    (state.inSelect token).Returnless := by
  cases token with
  | startTag tag =>
      have new : tag.Returnless := new
      have option_ : (state.popName "option").Returnless := (returnless_popName _).mpr plain
      have group := (returnless_popName "optgroup").mpr option_
      simp only [State.inSelect]
      split_ifs <;> simp [plain, new, option_, group, new.element]
  | blank content | text content => exact plain.insertText new
  | comment content => exact plain.insertComment new
  | _ =>
      simp only [State.inSelect]
      try split_ifs
      all_goals simp [plain]

theorem inSelectInTable {token : Token} (new : token.Returnless) :
    (state.inSelectInTable token).Returnless := by
  cases token <;> simp only [State.inSelectInTable] <;> try split_ifs
  all_goals simp [plain, new]

theorem inTemplate {token : Token} (new : token.Returnless) :
    (state.inTemplate token).Returnless := by
  have turned : ∀ mode, (state.turnTemplate mode).Returnless := fun _ => plain
  cases token with
  | startTag tag =>
      have new : tag.Returnless := new
      simp only [State.inTemplate]
      split_ifs <;> simp [plain, turned, new]
  | _ =>
      simp only [State.inTemplate]
      try split_ifs
      all_goals simp [plain, new]

/-! ## Whole tokens -/

theorem inText {token : Token} (new : token.Returnless) : (state.inText token).Returnless := by
  cases token with
  | blank content | text content => exact plain.insertText new
  | _ => exact plain

theorem afterBody {token : Token} (new : token.Returnless) :
    (state.afterBody token).Returnless := by
  cases token with
  | startTag tag => exact iteInduction (fun _ => plain.mergeRoot new) fun _ => plain
  | endTag tag => exact iteInduction (fun _ => plain) fun _ => plain
  | comment content => exact plain.insertCommentIn _ new
  | blank content => exact plain.inBody new
  | _ => exact plain

theorem afterDocument {token : Token} (new : token.Returnless) :
    (state.afterDocument token).Returnless := by
  cases token with
  | startTag tag => exact iteInduction (fun _ => plain.mergeRoot new) fun _ => plain
  | comment content => exact plain.insertCommentIn _ new
  | blank content => exact plain.inBody new
  | _ => exact plain

theorem stepIn {token : Token} (new : token.Returnless) : (state.stepIn token).Returnless := by
  unfold State.stepIn
  split
  · exact plain.initial token
  · exact plain.beforeHtml new
  · exact plain.beforeHead new
  · exact plain.inHead new
  · exact plain.afterHead new
  · exact plain.inBody new
  · exact plain.inText new
  · exact plain.inTable new
  · exact plain.inTableText new
  · exact plain.inCaption new
  · exact plain.inColumns new
  · exact plain.inTableBody new
  · exact plain.inRow new
  · exact plain.inCell new
  · exact plain.inSelect new
  · exact plain.inSelectInTable new
  · exact plain.inTemplate new
  · exact plain.afterBody new
  · exact plain.afterDocument new
  · exact plain

theorem inForeign {token : Token} (new : token.Returnless) :
    (state.inForeign token).Returnless := by
  have left : state.leaveForeign.Returnless := plain
  have sign : Html.Returnless (String.singleton replacement) := by decide
  cases token with
  | null => exact plain.insertText sign
  | blank content => exact plain.insertText new
  | text content => exact insertText (returnless_refuseFrames.mpr plain) new
  | comment content => exact plain.insertComment new
  | startTag tag =>
      exact iteInduction (fun _ => left.stepIn new) fun _ => plain.insertForeign new _ _
  | endTag tag =>
      refine iteInduction (fun _ => left.stepIn new) fun _ => ?_
      split
      · exact plain
      · exact plain.stepIn new
  | finish | doctype _ => exact plain

theorem step {token : Token} (new : token.Returnless) : (state.step token).Returnless := by
  unfold State.step
  split
  · exact plain.inForeign new
  · exact plain.stepIn new

theorem settle (attempts : Nat) {token : Token} (new : token.Returnless) :
    (State.settle attempts state token).Returnless := by
  induction attempts generalizing state with
  | zero => exact plain
  | succ attempts ih =>
      have stepped := plain.step new
      rw [State.settle]
      generalize state.step token = step at stepped
      cases step with
      | done next => exact stepped
      | again next => exact ih stepped

theorem take {token : Token} (new : token.Returnless) : (state.take token).Returnless := by
  have unskipped : ({ state with skipsNewline := false } : State).Returnless := plain
  have shorter : ∀ other, (if state.skipsNewline then withoutNewline token else some token) =
      some other → other.Returnless := by
    intro other same
    split at same
    · cases token with
      | blank content =>
          simp only [withoutNewline] at same
          split at same
          · cases same
          · next rest begins =>
              cases same
              refine returnless_ofList.mpr fun member => new ?_
              rw [begins]
              exact List.mem_cons_of_mem _ member
          · cases same
            exact new
      | _ =>
          cases same
          exact new
    · cases same
      exact new
  unfold State.take
  dsimp only
  split
  · split
    · exact unskipped.settle 1 trivial
    · exact unskipped
  · next other _ same => exact unskipped.settle _ (shorter _ same)
  · exact unskipped

end State.Returnless

end Bindery.Html
