import Bindery.Proofs.Html.Sound

/-!
# Steps between sound states

Every token that is read leaves a sound state sound, by whatever rules it is looked at.
-/

set_option autoImplicit false

namespace Bindery.Html

namespace State.Sound

variable {state : State}

/-! ## In the head -/

@[simp] theorem mergeRoot (sound : state.Sound) (tag : Tag) : (state.mergeRoot tag).Sound := by
  unfold State.mergeRoot
  split
  · split
    · exact sound
    · exact sound.withArena (.changeElement _ _ _)
  · exact sound

@[simp] theorem openRoot (sound : state.Sound) (tag : Element) : (state.openRoot tag).Sound := by
  have fresh := state.arena.snd_addElement_lt tag
  have appended := Arena.Extends.append (state.arena.addElement tag).1 document
    (state.arena.addElement tag).2
  exact ((sound.create tag).withArena appended).push (Nat.lt_of_lt_of_le fresh appended.size)

@[simp] theorem openHead (sound : state.Sound) (tag : Element) : (state.openHead tag).Sound := by
  obtain ⟨nodes, opened, -, formatting, reading⟩ := sound.insertOpen tag
  refine ⟨nodes, opened, ?_, formatting, reading⟩
  rintro node ⟨⟩
  exact insertOpen_lt state tag

@[simp] theorem openTemplate (sound : state.Sound) (tag : Tag) :
    (state.openTemplate tag).Sound := (sound.openTag tag).addMarker

@[simp] theorem closeTemplate (sound : state.Sound) : state.closeTemplate.Sound := by
  unfold State.closeTemplate
  split
  · exact ((sound.closeImplied _).popThroughName _).clearFormatting
  · exact sound

/-- The tags that are shared with the head, and one more that the head has. -/
theorem sharedStart (sound : state.Sound) {tag : Tag}
    (known : tag.name ∈ "noscript" :: sharedStarts) : (state.sharedStart tag).Sound := by
  have named : ∀ name ∈ "noscript" :: sharedStarts, (Reading.raw name).isNamed = true := by decide
  unfold State.sharedStart
  split_ifs
  · exact sound.insertClosed _
  · exact sound.openText tag (named _ known)
  · exact sound.openText tag rfl
  · exact sound.openTemplate tag
  · exact sound.openText tag (named _ known)

@[simp] theorem sharedAfterHead (sound : state.Sound) {tag : Tag}
    (known : tag.name ∈ sharedStarts) : (state.sharedAfterHead tag).Sound := by
  unfold State.sharedAfterHead
  split
  · next head found =>
      have pushed := sound.push (sound.head head found)
      exact (pushed.sharedStart (List.mem_cons_of_mem _ known)).removeOpen head
  · exact sound

end State.Sound

/-- The state that a step leaves is sound. -/
def Step.Sound (step : Step) : Prop := step.state.Sound

@[simp] theorem Step.sound_done (state : State) : (Step.done state).Sound ↔ state.Sound := .rfl

@[simp] theorem Step.sound_again (state : State) : (Step.again state).Sound ↔ state.Sound := .rfl

namespace State.Sound

variable {state : State}

theorem initial (sound : state.Sound) (token : Token) : (state.initial token).Sound := by
  cases token <;> exact sound

theorem beforeHtml (sound : state.Sound) (token : Token) : (state.beforeHtml token).Sound := by
  cases token <;> simp only [State.beforeHtml] <;> try split_ifs
  all_goals simp [sound]

theorem beforeHead (sound : state.Sound) (token : Token) : (state.beforeHead token).Sound := by
  cases token <;> simp only [State.beforeHead] <;> try split_ifs
  all_goals simp [sound]

theorem inHead (sound : state.Sound) (token : Token) : (state.inHead token).Sound := by
  cases token with
  | startTag tag =>
      simp only [State.inHead]
      split_ifs with _ _ shared
      · simp [sound]
      · exact sound
      · have known : tag.name ∈ "noscript" :: sharedStarts := by simpa using shared
        exact sound.sharedStart known
      · simp [sound]
  | _ =>
      simp only [State.inHead]
      try split_ifs
      all_goals simp [sound]

theorem afterHead (sound : state.Sound) (token : Token) : (state.afterHead token).Sound := by
  cases token <;> simp only [State.afterHead] <;> try split_ifs
  all_goals simp_all

end State.Sound

/-! ## In the body -/

theorem fosters_of_formatting {tag : Tag}
    (formatting : tag.name ∈ "a" :: "nobr" :: formattingNames) :
    tag.element.fosters = false := by
  have others : ∀ name ∈ "a" :: "nobr" :: formattingNames,
      ["table", "tbody", "tfoot", "thead", "tr"].contains name = false := by decide
  rw [Element.fosters, Element.isOneOf]
  exact Bool.and_eq_false_iff.mpr (.inr (others _ formatting))

namespace State.Sound

variable {state : State}

@[simp] theorem mergeBody (sound : state.Sound) (tag : Tag) : (state.mergeBody tag).Sound := by
  unfold State.mergeBody
  split
  · split
    · exact sound
    · exact sound.withArena (.changeElement _ _ _)
  · exact sound

@[simp] theorem replaceBody (sound : state.Sound) (tag : Tag) :
    (state.replaceBody tag).Sound := by
  unfold State.replaceBody
  split
  · split
    · exact ((sound.withArena (.detach _ _)).closing (List.drop_sublist _ _)).openTag tag
    · exact sound
  · exact sound

@[simp] theorem openBlock (sound : state.Sound) (tag : Tag) : (state.openBlock tag).Sound :=
  sound.closeParagraphInScope.openTag tag

@[simp] theorem openHeading (sound : state.Sound) (tag : Tag) :
    (state.openHeading tag).Sound := by
  unfold State.openHeading
  dsimp only
  split
  · exact sound.closeParagraphInScope.pop.openTag tag
  · exact sound.closeParagraphInScope.openTag tag

@[simp] theorem openForm (sound : state.Sound) (tag : Tag) : (state.openForm tag).Sound := by
  have opened := sound.closeParagraphInScope.insertOpen tag.element
  unfold State.openForm
  dsimp only
  split_ifs <;> first | exact sound | exact opened

@[simp] theorem closeForm (sound : state.Sound) : state.closeForm.Sound := by
  unfold State.closeForm
  split_ifs
  · exact sound.closeOptional.popThroughName "form"
  · exact sound
  · split
    · exact sound
    · have closed : ({ state with form? := none } : State).Sound := sound
      dsimp only
      split
      · exact closed.closeOptional.removeOpen _
      · exact sound

@[simp] theorem openItem (sound : state.Sound) (tag : Tag) : (state.openItem tag).Sound := by
  have refused : state.refuseFrames.Sound := sound
  unfold State.openItem
  dsimp only
  split
  · exact ((refused.closeOptionalExcept _).popThroughName _).openBlock tag
  · exact refused.openBlock tag

@[simp] theorem openButton (sound : state.Sound) (tag : Tag) : (state.openButton tag).Sound := by
  unfold State.openButton
  dsimp only
  split
  · exact (sound.closeOptional.popThroughName "button").reopenFormatting.openTag tag
  · exact sound.reopenFormatting.openTag tag

theorem openLink (sound : state.Sound) {tag : Tag} (inline : tag.element.fosters = false) :
    (state.openLink tag).Sound := by
  unfold State.openLink
  dsimp only
  split
  · next node tag _ =>
      have closed := ((sound.closeFormatting "a").dropFormatting node).removeOpen node
      exact closed.reopenFormatting.openFormatting inline
  · exact sound.reopenFormatting.openFormatting inline

theorem openUnbroken (sound : state.Sound) {tag : Tag} (inline : tag.element.fosters = false) :
    (state.openUnbroken tag).Sound := by
  unfold State.openUnbroken
  dsimp only
  split
  · exact (sound.reopenFormatting.closeFormatting "nobr").reopenFormatting.openFormatting inline
  · exact sound.reopenFormatting.openFormatting inline

@[simp] theorem openTable (sound : state.Sound) (tag : Tag) : (state.openTable tag).Sound := by
  unfold State.openTable
  dsimp only
  split
  · exact sound.openTag tag
  · exact sound.closeParagraphInScope.openTag tag

@[simp] theorem openSelect (sound : state.Sound) (tag : Tag) : (state.openSelect tag).Sound :=
  sound.reopenFormatting.openTag tag

@[simp] theorem openOption (sound : state.Sound) (tag : Tag) : (state.openOption tag).Sound := by
  unfold State.openOption
  dsimp only
  split
  · exact sound.pop.reopenFormatting.openTag tag
  · exact sound.reopenFormatting.openTag tag

@[simp] theorem openRuby (sound : state.Sound) (tag : Tag) : (state.openRuby tag).Sound := by
  unfold State.openRuby
  dsimp only
  split_ifs
  · exact sound.closeOptional.openTag tag
  · exact (sound.closeOptionalExcept "rtc").openTag tag
  · exact sound.openTag tag

@[simp] theorem insertForeign (sound : state.Sound) (tag : Tag) (space : Space)
    (respelled : Bool) : (state.insertForeign tag space respelled).Sound := by
  unfold State.insertForeign
  dsimp only
  split
  · exact sound.insertClosed _
  · exact sound.insertOpen _

@[simp] theorem startInBody (sound : state.Sound) (tag : Tag) : (state.startInBody tag).Sound := by
  have paragraph := sound.closeParagraphInScope
  have reopened := sound.reopenFormatting
  have inserted := reopened.insertClosed tag.element
  unfold State.startInBody
  dsimp only
  refine iteInduction (fun _ => sound.mergeRoot tag) fun _ => ?_
  refine iteInduction (fun shared => sound.sharedStart ?_) fun _ => ?_
  · exact List.mem_cons_of_mem _ (List.contains_iff_mem.mp shared)
  refine iteInduction (fun _ => sound.mergeBody tag) fun _ => ?_
  refine iteInduction (fun _ => sound.replaceBody tag) fun _ => ?_
  refine iteInduction (fun _ => sound.openBlock tag) fun _ => ?_
  refine iteInduction (fun _ => sound.openHeading tag) fun _ => ?_
  refine iteInduction (fun _ => sound.openBlock tag) fun _ => ?_
  refine iteInduction (fun _ => sound.openForm tag) fun _ => ?_
  refine iteInduction (fun _ => sound.openItem tag) fun _ => ?_
  refine iteInduction (fun _ => (sound.openBlock tag).withReading rfl) fun _ => ?_
  refine iteInduction (fun _ => sound.openButton tag) fun _ => ?_
  refine iteInduction (fun link => sound.openLink (fosters_of_formatting ?_)) fun _ => ?_
  · exact link ▸ List.mem_cons_self
  refine iteInduction (fun formatting => reopened.openFormatting (fosters_of_formatting ?_))
    fun _ => ?_
  · exact List.mem_cons_of_mem _ (List.mem_cons_of_mem _ (List.contains_iff_mem.mp formatting))
  refine iteInduction (fun unbroken => sound.openUnbroken (fosters_of_formatting ?_)) fun _ => ?_
  · exact unbroken ▸ List.mem_cons_of_mem _ List.mem_cons_self
  refine iteInduction (fun _ => sound_refuseFrames.mpr (reopened.openTag tag).addMarker) fun _ => ?_
  refine iteInduction (fun _ => sound.openTable tag) fun _ => ?_
  refine iteInduction (fun _ => sound_refuseFrames.mpr (reopened.insertClosed _)) fun _ => ?_
  refine iteInduction (fun _ => sound_refuseFrames.mpr inserted) fun _ => ?_
  refine iteInduction
    (fun _ => iteInduction (fun _ => inserted) fun _ => sound_refuseFrames.mpr inserted)
    fun _ => ?_
  refine iteInduction (fun _ => sound.insertClosed _) fun _ => ?_
  refine iteInduction (fun _ => sound_refuseFrames.mpr (paragraph.insertClosed _)) fun _ => ?_
  refine iteInduction (fun area => ?_) fun _ => ?_
  · exact (sound_refuseFrames.mpr sound).openText tag (area ▸ rfl)
  refine iteInduction (fun verbatim => ?_) fun _ => ?_
  · exact (sound_refuseFrames.mpr paragraph.reopenFormatting).openText tag (verbatim ▸ rfl)
  refine iteInduction (fun verbatim => ?_) fun _ => ?_
  · exact (sound_refuseFrames.mpr sound).openText tag (verbatim ▸ rfl)
  refine iteInduction (fun verbatim => sound.openText tag ?_) fun _ => ?_
  · have names : tag.name = "noembed" ∨ tag.name = "noscript" := by simpa using verbatim
    rcases names with named | named <;> exact named ▸ rfl
  refine iteInduction (fun _ => sound.openSelect tag) fun _ => ?_
  refine iteInduction (fun _ => sound.openOption tag) fun _ => ?_
  refine iteInduction (fun _ => sound.openRuby tag) fun _ => ?_
  refine iteInduction (fun _ => sound.insertForeign tag _ _) fun _ => ?_
  refine iteInduction (fun _ => sound.insertForeign tag _ _) fun _ => ?_
  exact iteInduction (fun _ => sound) fun _ => reopened.openTag tag

@[simp] theorem endInBody (sound : state.Sound) (tag : Tag) : (state.endInBody tag).Sound := by
  have ended := sound.closeOptional.popThroughName tag.name
  have item := (sound.closeOptionalExcept tag.name).popThroughName tag.name
  unfold State.endInBody
  dsimp only
  refine iteInduction (fun _ => sound.closeTemplate) fun _ => ?_
  refine iteInduction (fun _ => iteInduction (fun _ => ended) fun _ => sound) fun _ => ?_
  refine iteInduction (fun _ => sound.closeForm) fun _ => ?_
  refine iteInduction
    (fun _ => closeParagraph (iteInduction (fun _ => sound) fun _ => sound.openName "p"))
    fun _ => ?_
  refine iteInduction (fun _ => iteInduction (fun _ => item) fun _ => sound) fun _ => ?_
  refine iteInduction (fun _ => iteInduction (fun _ => item) fun _ => sound) fun _ => ?_
  refine iteInduction
    (fun _ => iteInduction (fun _ => sound.closeOptional.popThrough _) fun _ => sound)
    fun _ => ?_
  refine iteInduction (fun _ => sound.closeFormatting _) fun _ => ?_
  refine iteInduction (fun _ => iteInduction (fun _ => ended.clearFormatting) fun _ => sound)
    fun _ => ?_
  refine iteInduction (fun _ => ?_) fun _ => sound.closeOrdinary _
  exact sound_refuseFrames.mpr (sound.reopenFormatting.insertClosed _)

@[simp] theorem finishInTemplate (sound : state.Sound) : state.finishInTemplate.Sound := by
  unfold State.finishInTemplate
  split
  · exact (sound.popThroughName "template").clearFormatting
  · exact sound

@[simp] theorem finishInBody (sound : state.Sound) : state.finishInBody.Sound := by
  unfold State.finishInBody
  split
  · exact sound
  · exact sound.finishInTemplate

@[simp] theorem inBody (sound : state.Sound) (token : Token) : (state.inBody token).Sound := by
  have refused := sound_refuseFrames.mpr sound.reopenFormatting
  cases token with
  | text content => exact refused.insertText content
  | endTag tag =>
      simp only [State.inBody]
      split_ifs <;> simp [sound]
  | _ => simp [State.inBody, sound]

/-! ## In tables -/

@[simp] theorem inBodyFostering (sound : state.Sound) (token : Token) :
    (state.inBodyFostering token).Sound := by
  have fostered : ({ state with fostering := true } : State).Sound := sound
  have looked := fostered.inBody token
  unfold State.inBodyFostering
  generalize State.inBody _ token = step at looked
  cases step <;> exact looked

@[simp] theorem tableText (sound : state.Sound) (token : Token) :
    (state.tableText token).Sound := by
  unfold State.tableText
  split
  · exact sound
  · exact sound.inBodyFostering token

theorem foldl {α : Type} {next : State → α → State}
    (keeps : ∀ {state : State} (item : α), state.Sound → (next state item).Sound)
    (sound : state.Sound) (items : List α) : (items.foldl next state).Sound := by
  induction items generalizing state with
  | nil => exact sound
  | cons item items ih => exact ih (keeps item sound)

@[simp] theorem insertPending (sound : state.Sound) : state.insertPending.Sound := by
  have emptied : ({ state with pending := [] } : State).Sound := sound
  unfold State.insertPending
  dsimp only
  split
  · exact emptied.foldl (fun part sound => sound.insertText part.2) _
  · exact emptied.foldl (fun part sound => sound.inBodyFostering _) _

@[simp] theorem inTableText (sound : state.Sound) (token : Token) :
    (state.inTableText token).Sound := by
  cases token <;> first | exact sound | exact sound.insertPending

@[simp] theorem startInTable (sound : state.Sound) (tag : Tag) :
    (state.startInTable tag).Sound := by
  have clear := sound.popDownTo Element.boundsTable
  unfold State.startInTable
  dsimp only
  refine iteInduction (fun _ => clear.addMarker.openTag tag) fun _ => ?_
  refine iteInduction (fun _ => clear.openTag tag) fun _ => ?_
  refine iteInduction (fun _ => clear.openName "colgroup") fun _ => ?_
  refine iteInduction (fun _ => clear.openTag tag) fun _ => ?_
  refine iteInduction (fun _ => clear.openName "tbody") fun _ => ?_
  refine iteInduction (fun _ => iteInduction (fun _ => sound.popThroughName "table") fun _ => sound)
    fun _ => ?_
  refine iteInduction (fun shared => sound.sharedStart ?_) fun _ => ?_
  · have names : ∀ name ∈ ["style", "script", "template"], name ∈ "noscript" :: sharedStarts := by
      decide
    exact names _ (List.contains_iff_mem.mp shared)
  refine iteInduction (fun _ => sound.insertClosed _) fun _ => ?_
  refine iteInduction (fun _ => iteInduction (fun _ => sound) fun _ => (sound.insertOpen _).pop)
    fun _ => ?_
  exact sound.inBodyFostering _

@[simp] theorem inTable (sound : state.Sound) (token : Token) : (state.inTable token).Sound := by
  cases token <;> simp only [State.inTable] <;> try split_ifs
  all_goals simp [sound]

theorem inCaption (sound : state.Sound) (token : Token) : (state.inCaption token).Sound := by
  have closed := (sound.closeOptional.popThroughName "caption").clearFormatting
  cases token <;> simp only [State.inCaption] <;> try split_ifs
  all_goals simp [sound, closed]

theorem inColumns (sound : state.Sound) (token : Token) : (state.inColumns token).Sound := by
  have shared : ∀ {tag : Tag}, tag.name = "template" → (state.sharedStart tag).Sound :=
    fun named => sound.sharedStart (named ▸ by decide)
  cases token <;> simp only [State.inColumns] <;> try split_ifs
  all_goals simp_all

theorem inTableBody (sound : state.Sound) (token : Token) : (state.inTableBody token).Sound := by
  have clear := sound.popDownTo Element.isSectionContext
  cases token <;> simp only [State.inTableBody] <;> try split_ifs
  all_goals simp [sound, clear]

theorem inRow (sound : state.Sound) (token : Token) : (state.inRow token).Sound := by
  have clear := sound.popDownTo Element.isRowContext
  have opened : ∀ tag, (((state.popDownTo Element.isRowContext).openTag tag).withMode
      .inCell).addMarker.Sound := fun tag => (clear.openTag tag).addMarker
  cases token <;> simp only [State.inRow] <;> try split_ifs
  all_goals simp [sound, clear, opened]

theorem inCell (sound : state.Sound) (token : Token) : (state.inCell token).Sound := by
  have closed : ∀ name, (state.closeOptional.popThroughName name).clearFormatting.Sound :=
    fun name => (sound.closeOptional.popThroughName name).clearFormatting
  cases token <;> simp only [State.inCell] <;> try split_ifs
  all_goals simp [sound, closed]

/-! ## In selections and templates -/

@[simp] theorem popName (sound : state.Sound) (name : String) : (state.popName name).Sound := by
  unfold State.popName
  split
  · exact sound.pop
  · exact sound

@[simp] theorem closeSelect (sound : state.Sound) : state.closeSelect.Sound :=
  sound.popThroughName "select"

@[simp] theorem endOptionGroup (sound : state.Sound) : state.endOptionGroup.Sound := by
  unfold State.endOptionGroup
  dsimp only
  exact popName (iteInduction (fun _ => sound.popName "option") fun _ => sound) "optgroup"

@[simp] theorem inSelect (sound : state.Sound) (token : Token) : (state.inSelect token).Sound := by
  have group := (sound.popName "option").popName "optgroup"
  cases token with
  | startTag tag =>
      simp only [State.inSelect]
      split_ifs with _ _ _ _ _ _ _ _ shared
      all_goals try simp [sound, group]
      have names : tag.name = "script" ∨ tag.name = "template" := by simpa using shared
      refine sound.sharedStart ?_
      rcases names with named | named <;> exact named ▸ by decide
  | _ =>
      simp only [State.inSelect]
      try split_ifs
      all_goals simp [sound]

theorem inSelectInTable (sound : state.Sound) (token : Token) :
    (state.inSelectInTable token).Sound := by
  cases token <;> simp only [State.inSelectInTable] <;> try split_ifs
  all_goals simp [sound]

theorem inTemplate (sound : state.Sound) (token : Token) : (state.inTemplate token).Sound := by
  have turned : ∀ mode, (state.turnTemplate mode).Sound := fun _ => sound
  cases token with
  | startTag tag =>
      simp only [State.inTemplate]
      split_ifs with shared
      all_goals try simp [turned]
      exact sound.sharedStart (List.mem_cons_of_mem _ (List.contains_iff_mem.mp shared))
  | _ =>
      simp only [State.inTemplate]
      try split_ifs
      all_goals simp [sound]

/-! ## Whole tokens -/

theorem inText (sound : state.Sound) (token : Token) : (state.inText token).Sound := by
  cases token <;> simp [State.inText, sound]

theorem afterBody (sound : state.Sound) (token : Token) : (state.afterBody token).Sound := by
  cases token <;> simp only [State.afterBody] <;> try split_ifs
  all_goals simp [sound]

theorem afterDocument (sound : state.Sound) (token : Token) :
    (state.afterDocument token).Sound := by
  cases token <;> simp only [State.afterDocument] <;> try split_ifs
  all_goals simp [sound]

theorem stepIn (sound : state.Sound) (token : Token) : (state.stepIn token).Sound := by
  unfold State.stepIn
  split
  · exact sound.initial token
  · exact sound.beforeHtml token
  · exact sound.beforeHead token
  · exact sound.inHead token
  · exact sound.afterHead token
  · exact sound.inBody token
  · exact sound.inText token
  · exact sound.inTable token
  · exact sound.inTableText token
  · exact sound.inCaption token
  · exact sound.inColumns token
  · exact sound.inTableBody token
  · exact sound.inRow token
  · exact sound.inCell token
  · exact sound.inSelect token
  · exact sound.inSelectInTable token
  · exact sound.inTemplate token
  · exact sound.afterBody token
  · exact sound.afterDocument token
  · exact sound

theorem foreignEnd_sublist {name : String} {first : Bool} {nodes opened : List Nat}
    (sub : nodes.Sublist state.opened) (found : state.foreignEnd name first nodes = some opened) :
    opened.Sublist state.opened := by
  fun_induction State.foreignEnd state name first nodes with
  | case1 => cases found; exact .refl _
  | case2 => cases found; exact .refl _
  | case3 => cases found
  | case4 first node rest => cases found; exact (List.sublist_cons_self _ _).trans sub
  | case5 first node rest _ _ _ _ ih =>
      exact ih ((List.sublist_cons_self _ _).trans sub) found

theorem inForeign (sound : state.Sound) (token : Token) : (state.inForeign token).Sound := by
  have left : state.leaveForeign.Sound := sound.popDownTo _
  cases token with
  | startTag tag =>
      exact iteInduction (fun _ => left.stepIn _) fun _ => sound.insertForeign tag _ _
  | endTag tag =>
      refine iteInduction (fun _ => left.stepIn _) fun _ => ?_
      split
      · next opened found => exact sound.closing (foreignEnd_sublist (.refl _) found)
      · exact sound.stepIn _
  | _ => simp [State.inForeign, sound]

theorem step (sound : state.Sound) (token : Token) : (state.step token).Sound := by
  unfold State.step
  split
  · exact sound.inForeign token
  · exact sound.stepIn token

theorem settle (sound : state.Sound) (attempts : Nat) (token : Token) :
    (State.settle attempts state token).Sound := by
  induction attempts generalizing state with
  | zero => exact sound
  | succ attempts ih =>
      have stepped := sound.step token
      rw [State.settle]
      generalize state.step token = step at stepped
      cases step with
      | done next => exact stepped
      | again next => exact ih stepped

theorem take (sound : state.Sound) (token : Token) : (state.take token).Sound := by
  have unskipped : ({ state with skipsNewline := false } : State).Sound := sound
  unfold State.take
  dsimp only
  split
  · split
    · exact unskipped.settle 1 _
    · exact unskipped
  · exact unskipped.settle _ _
  · exact unskipped

end State.Sound

end Bindery.Html
