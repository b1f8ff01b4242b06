import Bindery.Proofs.Markdown.Nesting

/-!
# Notes that a text declares

The reader of a text remembers the keys of its footnotes as their containers
open. Each of them becomes a block, whose start is outside of every
alternative text.
-/

set_option autoImplicit false

namespace Bindery.Markdown

/-- A note with the label starts among the events of the block, outside alternative texts. -/
def Block.Declares (block : Block) (label : List Char) : Prop :=
  ∀ definitions tight,
    .start (.footnote label) ∈
      outsideImages Event.linkedNesting 0 (block.events definitions tight)

theorem outsideImages_enclose {tag : Tag} {content : List Event}
    (flat : (Event.start tag).linkedNesting.depth 0 = 0) :
    outsideImages Event.linkedNesting 0 (Event.enclose tag content) =
      .start tag :: outsideImages Event.linkedNesting 0 content ++
        outsideImages Event.linkedNesting (depthAfter Event.linkedNesting 0 content)
          [.finish tag] := by
  rw [Event.enclose, List.cons_append, outsideImages, flat, outsideImages_append]
  rfl

theorem outsideImages_blockEvents_subset {definitions : Definitions} {tight : Bool} {block : Block}
    {blocks : List Block} (listed : block ∈ blocks) :
    outsideImages Event.linkedNesting 0 (block.events definitions tight) ⊆
      outsideImages Event.linkedNesting 0 (blockEvents definitions tight blocks) := by
  intro event member
  induction blocks with
  | nil => cases listed
  | cons first rest ih =>
      rw [blockEvents, outsideImages_append, first.balanced definitions tight 0]
      rcases List.mem_cons.mp listed with rfl | listed
      · exact List.mem_append_left _ member
      · exact List.mem_append_right _ (ih listed)

/-- An element that is no image declares what its children do. -/
theorem mem_enclose_blockEvents {tag : Tag} {definitions : Definitions} {tight : Bool}
    {child : Block} {children : List Block} {label : List Char}
    (flat : (Event.start tag).linkedNesting.depth 0 = 0) (listed : child ∈ children)
    (declares : child.Declares label) :
    .start (.footnote label) ∈ outsideImages Event.linkedNesting 0
      (Event.enclose tag (blockEvents definitions tight children)) := by
  rw [outsideImages_enclose flat]
  refine List.mem_append_left _ (List.mem_cons_of_mem _ ?_)
  exact outsideImages_blockEvents_subset listed (declares definitions tight)

theorem Container.toBlock_declares (container : Container) {child : Block} {children : List Block}
    {label : List Char} (listed : child ∈ children) (declares : child.Declares label) :
    (container.toBlock children).Declares label := by
  intro definitions tight
  cases container with
  | quote => exact mem_enclose_blockEvents rfl listed declares
  | list mark start tight => exact mem_enclose_blockEvents rfl listed declares
  | item indent => exact mem_enclose_blockEvents rfl listed declares
  | footnote other => exact mem_enclose_blockEvents rfl listed declares

theorem footnote_declares (label : List Char) (children : List Block) :
    (Block.footnote label children).Declares label := by
  intro definitions tight
  rw [Block.events, outsideImages_enclose rfl]
  exact List.mem_append_left _ List.mem_cons_self

/-- The container is a footnote with the label, or it holds one. -/
def OpenContainer.Declares (opened : OpenContainer) (label : List Char) : Prop :=
  opened.container = .footnote label ∨ ∃ child ∈ opened.children, child.Declares label

theorem OpenContainer.Declares.toBlock {opened : OpenContainer} {label : List Char}
    (declares : opened.Declares label) :
    (opened.container.toBlock opened.children.reverse).Declares label := by
  rcases declares with same | ⟨child, listed, declares⟩
  · rw [same]
    exact footnote_declares label _
  · exact opened.container.toBlock_declares (List.mem_reverse.mpr listed) declares

namespace Assembly

/-- A footnote with the label is open or complete. -/
def Declares (assembly : Assembly) (label : List Char) : Prop :=
  (∃ opened ∈ assembly.stack, opened.Declares label) ∨
    ∃ block ∈ assembly.blocks, block.Declares label

/-- What is declared stays declared, and the keys are the same. -/
structure Keeps (before after : Assembly) : Prop where
  footnotes : after.definitions.footnotes = before.definitions.footnotes
  declares : ∀ label, before.Declares label → after.Declares label

theorem Keeps.refl (assembly : Assembly) : assembly.Keeps assembly := ⟨rfl, fun _ => id⟩

theorem Keeps.trans {first second third : Assembly} (earlier : first.Keeps second)
    (later : second.Keeps third) : first.Keeps third :=
  ⟨later.footnotes.trans earlier.footnotes,
    fun label declares => later.declares label (earlier.declares label declares)⟩

theorem declares_add_of_block (assembly : Assembly) {block : Block} {label : List Char}
    (declares : block.Declares label) : (assembly.add block).Declares label := by
  unfold add
  split
  · exact .inr ⟨block, List.mem_cons_self, declares⟩
  · exact .inl ⟨_, List.mem_cons_self, .inr ⟨block, List.mem_cons_self, declares⟩⟩

theorem keeps_add (assembly : Assembly) (block : Block) : assembly.Keeps (assembly.add block) := by
  unfold add
  split
  · next none =>
      refine ⟨rfl, fun label declares => ?_⟩
      rcases declares with ⟨opened, listed, declares⟩ | ⟨other, listed, declares⟩
      · exact .inl ⟨opened, listed, declares⟩
      · exact .inr ⟨other, List.mem_cons_of_mem _ listed, declares⟩
  · next inner outer some =>
      refine ⟨rfl, fun label declares => ?_⟩
      rcases declares with ⟨opened, listed, declares⟩ | complete
      · rw [some] at listed
        rcases List.mem_cons.mp listed with rfl | listed
        · refine .inl ⟨_, List.mem_cons_self, ?_⟩
          rcases declares with same | ⟨child, listed, declares⟩
          · exact .inl same
          · exact .inr ⟨child, List.mem_cons_of_mem _ listed, declares⟩
        · exact .inl ⟨opened, List.mem_cons_of_mem _ listed, declares⟩
      · exact .inr complete

theorem keeps_enter (assembly : Assembly) (container : Container) :
    assembly.Keeps (assembly.enter container) := by
  refine ⟨rfl, fun label declares => ?_⟩
  rcases declares with ⟨opened, listed, declares⟩ | complete
  · exact .inl ⟨opened, List.mem_cons_of_mem _ listed, declares⟩
  · exact .inr complete

theorem keeps_leave (assembly : Assembly) : assembly.Keeps assembly.leave := by
  unfold leave
  split
  · exact .refl assembly
  · next inner outer some =>
      refine ⟨(keeps_add _ _).footnotes, fun label declares => ?_⟩
      rcases declares with ⟨opened, listed, declares⟩ | complete
      · rw [some] at listed
        rcases List.mem_cons.mp listed with rfl | listed
        · exact declares_add_of_block _ declares.toBlock
        · exact (keeps_add _ _).declares label (.inl ⟨opened, listed, declares⟩)
      · exact (keeps_add _ _).declares label (.inr complete)

theorem keeps_leaveTo (count fuel : Nat) (assembly : Assembly) :
    assembly.Keeps (leaveTo count fuel assembly) := by
  fun_induction leaveTo count fuel assembly with
  | case1 assembly => exact .refl assembly
  | case2 fuel assembly few => exact .refl assembly
  | case3 fuel assembly many ih => exact (keeps_leave assembly).trans ih

theorem loosen_declares {opened : OpenContainer} {label : List Char}
    (declares : opened.Declares label) : (loosen opened).Declares label := by
  unfold loosen
  split
  · next list =>
      rcases declares with same | held
      · rw [list] at same
        cases same
      · exact .inr held
  · exact declares

/-- Loosening the outermost container of a part of the stack loses nothing. -/
theorem keeps_loosen {assembly : Assembly} (inner : List OpenContainer)
    {rest : List OpenContainer} {opened : OpenContainer}
    (stack : assembly.stack = inner ++ opened :: rest) :
    assembly.Keeps
      { assembly with stack := inner ++ loosen opened :: rest, blankBefore := false } := by
  refine ⟨rfl, fun label declares => ?_⟩
  rcases declares with ⟨other, listed, declares⟩ | complete
  · rw [stack, List.mem_append, List.mem_cons] at listed
    rcases listed with listed | rfl | listed
    · exact .inl ⟨other, List.mem_append_left _ listed, declares⟩
    · exact .inl ⟨loosen other, List.mem_append_right _ List.mem_cons_self, loosen_declares declares⟩
    · exact .inl ⟨other, List.mem_append_right _ (List.mem_cons_of_mem _ listed), declares⟩
  · exact .inr complete

theorem keeps_leave_if (test : Bool) (assembly : Assembly) :
    assembly.Keeps (if test then assembly.leave else assembly) := by
  split
  · exact keeps_leave assembly
  · exact .refl assembly

theorem keeps_endList (assembly : Assembly) : assembly.Keeps assembly.endList := by
  refine (keeps_leave_if (assembly.inside isList) assembly).trans ?_
  unfold endList
  generalize (if assembly.inside isList then assembly.leave else assembly) = left
  dsimp only
  split
  · split
    · next inner outer rest stack => exact keeps_loosen [inner] stack
    · exact ⟨rfl, fun _ => id⟩
  · exact .refl left

theorem keeps_enterList (assembly : Assembly) (mark : Char) (start : Nat) :
    assembly.Keeps (assembly.enterList mark start) := by
  unfold enterList
  dsimp only
  split
  · split
    · split
      · next inner rest stack => exact keeps_loosen [] stack
      · exact ⟨rfl, fun _ => id⟩
    · exact .refl assembly
  · have entered := (keeps_endList assembly).trans (keeps_enter _ (.list mark start true))
    exact ⟨entered.footnotes, entered.declares⟩

theorem keeps_addLeaf (assembly : Assembly) (leaf : Block × Cursor) :
    assembly.Keeps (assembly.addLeaf leaf) :=
  ⟨(keeps_add assembly leaf.1).footnotes, (keeps_add assembly leaf.1).declares⟩

theorem keeps_passBlankLine (assembly : Assembly) (length : Nat) :
    assembly.Keeps (assembly.passBlankLine length) := by
  have left := keeps_leave { assembly with cursor := assembly.cursor.advance length }
  unfold passBlankLine
  dsimp only
  split
  · exact ⟨rfl, fun _ => id⟩
  · split
    · exact ⟨left.footnotes, left.declares⟩
    · exact ⟨rfl, fun _ => id⟩

theorem keeps_readLeaf (assembly : Assembly) : assembly.Keeps assembly.readLeaf := by
  unfold readLeaf
  dsimp only
  split
  · exact ⟨(keeps_addLeaf assembly _).footnotes, (keeps_addLeaf assembly _).declares⟩
  · split
    · exact keeps_addLeaf assembly _
    · split
      · exact keeps_addLeaf assembly _
      · exact keeps_addLeaf assembly _
      · exact keeps_addLeaf assembly _
      · split
        · exact ⟨rfl, fun _ => id⟩
        · exact keeps_addLeaf assembly _

/-- Every key of a footnote is that of a label that is declared. -/
def Accounted (assembly : Assembly) : Prop :=
  ∀ key ∈ assembly.definitions.footnotes,
    ∃ label, assembly.Declares label ∧ labelKey label = key

theorem Accounted.keeps {before after : Assembly} (accounted : before.Accounted)
    (keeps : before.Keeps after) : after.Accounted := by
  intro key listed
  rw [keeps.footnotes] at listed
  obtain ⟨label, declares, same⟩ := accounted key listed
  exact ⟨label, keeps.declares label declares, same⟩

/-- A footnote that opens accounts for its own key. -/
theorem Accounted.enterFootnote {assembly : Assembly} (accounted : assembly.Accounted)
    (label : List Char) (cursor : Cursor) :
    Accounted { assembly.enter (.footnote label) with
      cursor := cursor
      definitions := assembly.definitions.addFootnote label } := by
  intro key listed
  rcases List.mem_cons.mp listed with rfl | listed
  · exact ⟨label, .inl ⟨_, List.mem_cons_self, .inl rfl⟩, rfl⟩
  · obtain ⟨other, declares, same⟩ := accounted key listed
    exact ⟨other, (keeps_enter assembly (.footnote label)).declares other declares, same⟩

theorem Accounted.enterItem {assembly : Assembly} (accounted : assembly.Accounted)
    (item : ListMark) :
    ((assembly.enterList item.mark item.start).enter (.item item.indent)).Accounted :=
  accounted.keeps ((keeps_enterList _ _ _).trans (keeps_enter _ _))

/-- Only a footnote adds a key, at the moment at which it opens. -/
theorem Accounted.enterMarked {assembly : Assembly} (accounted : assembly.Accounted) (fuel : Nat) :
    (enterMarked fuel assembly).1.Accounted := by
  fun_induction Assembly.enterMarked fuel assembly with
  | case1 => exact accounted
  | case2 => exact accounted
  | case3 fuel assembly _ _ _ _ label _ _ ended left _ cursor ih =>
      have leftAccounted : left.Accounted :=
        (accounted.keeps (keeps_endList assembly)).keeps (keeps_leave_if _ ended)
      exact ih (leftAccounted.enterFootnote label cursor)
  | case4 _ _ _ _ _ _ _ item _ _ _ _ => exact accounted.enterItem item
  | case5 _ _ _ _ _ _ _ item _ _ _ ih => exact ih (accounted.enterItem item)
  | case6 _ assembly _ _ _ _ _ _ _ _ ih =>
      have entered := accounted.keeps ((keeps_endList assembly).trans (keeps_enter _ .quote))
      exact ih entered
  | case7 => exact accounted

theorem Accounted.readLine {assembly : Assembly} (accounted : assembly.Accounted) :
    assembly.readLine.Accounted := by
  unfold Assembly.readLine
  generalize skipMarks assembly.containers assembly.cursor.startLine = marks
  obtain ⟨count, cursor⟩ := marks
  dsimp only
  generalize continued : leaveTo count assembly.stack.length assembly = left
  have leftAccounted : left.Accounted := by
    rw [← continued]
    exact accounted.keeps (keeps_leaveTo _ _ _)
  have movedAccounted : Accounted { left with cursor := cursor } := leftAccounted
  have openedAccounted := movedAccounted.enterMarked (cursor.rest.length + 1)
  generalize Assembly.enterMarked (cursor.rest.length + 1) { left with cursor := cursor } = result
    at openedAccounted ⊢
  obtain ⟨opened, finished⟩ := result
  dsimp only at openedAccounted ⊢
  split
  · exact openedAccounted
  · split
    · exact openedAccounted.keeps (keeps_passBlankLine _ _)
    · have ended := openedAccounted.keeps (keeps_endList opened)
      have endedAccounted : Accounted { opened.endList with emptyItem := false } := ended
      exact endedAccounted.keeps (keeps_readLeaf _)

theorem length_stack_add (assembly : Assembly) (block : Block) :
    (assembly.add block).stack.length = assembly.stack.length := by
  unfold add
  split
  · rfl
  · next stack => rw [stack]; rfl

theorem length_stack_leave (assembly : Assembly) :
    assembly.leave.stack.length = assembly.stack.length - 1 := by
  unfold leave
  split
  · next stack => rw [stack]; rfl
  · next stack => rw [length_stack_add, stack]; rfl

theorem stack_leaveTo_zero {fuel : Nat} {assembly : Assembly}
    (enough : assembly.stack.length ≤ fuel) : (leaveTo 0 fuel assembly).stack = [] := by
  induction fuel generalizing assembly with
  | zero => exact List.length_eq_zero_iff.mp (Nat.le_zero.mp enough)
  | succ fuel ih =>
      unfold leaveTo
      split
      · next empty => exact List.length_eq_zero_iff.mp (Nat.le_zero.mp empty)
      · refine ih ?_
        rw [length_stack_leave]
        omega

/-- In the end all containers are closed, and every key has a complete footnote. -/
theorem Accounted.readAll {assembly : Assembly} (accounted : assembly.Accounted) (fuel : Nat) :
    (assembly.readAll fuel).Accounted ∧ (assembly.readAll fuel).stack = [] := by
  have closed : ∀ {last : Assembly}, last.Accounted →
      (leaveTo 0 last.stack.length last).Accounted ∧
        (leaveTo 0 last.stack.length last).stack = [] :=
    fun lastAccounted => ⟨lastAccounted.keeps (keeps_leaveTo _ _ _), stack_leaveTo_zero (Nat.le_refl _)⟩
  induction fuel generalizing assembly with
  | zero => exact closed accounted
  | succ fuel ih =>
      unfold Assembly.readAll
      split
      · exact closed accounted
      · exact ih accounted.readLine

end Assembly

/-- The key of every footnote of a text is that of a note among its events, outside alternative
texts. -/
theorem Document.declares_of_footnote (text : List Char) {key : List Char}
    (listed : key ∈ (Document.ofText text).definitions.footnotes) :
    ∃ label, labelKey label = key ∧
      .start (.footnote label) ∈
        outsideImages Event.linkedNesting 0 (Document.ofText text).events := by
  have accounted : (Assembly.start text).Accounted := fun _ listed => nomatch listed
  obtain ⟨finished, closed⟩ := accounted.readAll (text.length + 1)
  obtain ⟨label, declares, same⟩ := finished key listed
  refine ⟨label, same, ?_⟩
  rcases declares with ⟨opened, member, -⟩ | ⟨block, member, declares⟩
  · rw [closed] at member
    cases member
  · exact outsideImages_blockEvents_subset (List.mem_reverse.mpr member) (declares _ _)

end Bindery.Markdown
