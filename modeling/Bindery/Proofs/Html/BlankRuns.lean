import Bindery.Proofs.Html.InsertedText

/-!
# Runs of blanks

A run of blanks that is read in two parts leaves what it leaves when it is read at once.
-/

set_option autoImplicit false

namespace Bindery.Html

/-! ## Elements that are opened -/

theorem Arena.element?_addElement (arena : Arena) (tag : Element) :
    (arena.addElement tag).1.element? (arena.addElement tag).2 = some tag := by
  cases template : tag.isHtml "template" with
  | true =>
      rw [addElement_of_template arena template, element?_eq_bind]
      simp [slot?, change, add, Array.getElem_modify, Array.getElem_push, Content.element?]
  | false =>
      rw [addElement_of_other arena template, element?_eq_bind]
      simp [slot?, add, Content.element?]

theorem Arena.KeepsElements.insertBefore (arena : Arena) (sibling node : Nat) :
    arena.KeepsElements (arena.insertBefore sibling node) := by
  unfold Arena.insertBefore
  split
  · exact refl arena
  · exact insertAt _ _ _ _

namespace State

variable {state : State}

theorem keepsElements_insertNode (state : State) (place : Place) (node : Nat) :
    state.arena.KeepsElements (state.insertNode place node).arena := by
  cases place with
  | inside parent => exact .append _ _ _
  | beforeTable table fallback =>
      unfold insertNode
      dsimp only
      split
      · exact .insertBefore _ _ _
      · exact .append _ _ _

theorem insertOpen_eq (state : State) (tag : Element) :
    (state.insertOpen tag).1 =
      { state with
        arena := (state.insertOpen tag).1.arena
        opened := (state.insertOpen tag).2 :: state.opened } := by
  have inserted := insertNode_eq (state.create tag).1 state.place (state.create tag).2
  have opened : (state.insertOpen tag).1 =
      ((state.create tag).1.insertNode state.place (state.create tag).2).push
        (state.create tag).2 := rfl
  rw [opened, inserted]
  rfl

theorem current_insertOpen (state : State) (tag : Element) :
    (state.insertOpen tag).1.current = tag := by
  have kept := keepsElements_insertNode (state.create tag).1 state.place (state.create tag).2
  have fresh : (state.create tag).1.arena.element? (state.create tag).2 = some tag :=
    state.arena.element?_addElement tag
  rw [← kept.element] at fresh
  have found : (state.insertOpen tag).1.current =
      (((state.create tag).1.insertNode state.place
        (state.create tag).2).arena.element? (state.create tag).2).getD Arena.noElement := rfl
  rw [found, fresh]
  rfl

/-! ## Formatting elements that are opened again -/

/-- Opens the element of one entry again. -/
def reopenEntry (state : State) : Formatting → State
  | .marker => state
  | .element node tag =>
      (state.insertOpen tag.element).1.replaceFormatting node
        [.element (state.insertOpen tag.element).2 tag]

/-- The entries of the elements that are to be opened again, the earliest first. -/
def lostFormatting (state : State) : List Formatting :=
  (state.formatting.takeWhile fun entry => !state.settled entry).reverse

theorem reopenFormatting_eq (state : State) :
    state.reopenFormatting = state.lostFormatting.foldl reopenEntry state := by
  rw [reopenFormatting]
  congr 1

theorem reopenFormatting_of_nil (none : state.lostFormatting = []) :
    state.reopenFormatting = state := by
  rw [reopenFormatting_eq, none, List.foldl_nil]

/-- All but the nodes, the open elements and the formatting elements is the same. -/
def SameRules (state other : State) : Prop :=
  ∃ arena opened formatting,
    other = { state with arena := arena, opened := opened, formatting := formatting }

theorem sameRules_reopenEntry (state : State) (entry : Formatting) :
    state.SameRules (state.reopenEntry entry) := by
  cases entry with
  | marker => exact ⟨_, _, _, rfl⟩
  | element node tag =>
      rw [reopenEntry, insertOpen_eq]
      exact ⟨_, _, _, rfl⟩

theorem sameRules_reopenFormatting (state : State) : state.SameRules state.reopenFormatting := by
  rw [reopenFormatting_eq]
  generalize state.lostFormatting = entries
  induction entries generalizing state with
  | nil => exact ⟨_, _, _, rfl⟩
  | cons entry entries ih =>
      obtain ⟨arena, opened, formatting, first⟩ := sameRules_reopenEntry state entry
      obtain ⟨_, _, _, others⟩ := ih (state.reopenEntry entry)
      rw [List.foldl_cons, others, first]
      exact ⟨_, _, _, rfl⟩

/-- The innermost element stays, or it is a formatting element. -/
theorem current_reopenFormatting (state : State) :
    state.reopenFormatting.current = state.current ∨
      ∃ node tag, .element node tag ∈ state.formatting ∧
        state.reopenFormatting.current = tag.element := by
  have lost : ∀ entry ∈ state.lostFormatting, entry ∈ state.formatting := fun entry member =>
    (List.takeWhile_sublist _).mem (List.mem_reverse.mp member)
  rw [reopenFormatting_eq]
  generalize state.lostFormatting = entries at lost
  generalize state.formatting = formatting at lost
  induction entries generalizing state with
  | nil => exact .inl rfl
  | cons entry entries ih =>
      obtain ⟨first, others⟩ := List.forall_mem_cons.mp lost
      rcases ih (state.reopenEntry entry) others with same | found
      · rw [List.foldl_cons, same]
        cases entry with
        | marker => exact .inl rfl
        | element node tag => exact .inr ⟨node, tag, first, current_insertOpen state tag.element⟩
      · exact .inr found

/-- The latest formatting element is that of the node, or it is open. -/
def LatestOpen (state : State) (node : Nat) : Prop :=
  ∃ latest tag others, state.formatting = .element latest tag :: others ∧
    (latest = node ∨ latest ∈ state.opened)

theorem LatestOpen.reopenElement {node : Nat} (latest : state.LatestOpen node) (other : Nat)
    (tag : Tag) : ∃ last lastTag others,
      (state.reopenEntry (.element other tag)).formatting = .element last lastTag :: others ∧
        (last = node ∧ last ≠ other ∨ last ∈ (state.reopenEntry (.element other tag)).opened) := by
  obtain ⟨last, lastTag, others, listed, settled⟩ := latest
  have opened : (state.reopenEntry (.element other tag)).opened =
      (state.insertOpen tag.element).2 :: state.opened := by
    rw [reopenEntry, insertOpen_eq]
    rfl
  have formatting : (state.reopenEntry (.element other tag)).formatting =
      state.formatting.flatMap fun entry =>
        if entry.isElement other then [.element (state.insertOpen tag.element).2 tag]
        else [entry] := by
    rw [reopenEntry, insertOpen_eq]
    rfl
  rw [opened, formatting, listed, List.flatMap_cons]
  by_cases same : last = other
  · have replaced : (Formatting.element last lastTag).isElement other = true := by
      simp [Formatting.isElement, Formatting.node?, same]
    rw [if_pos replaced]
    exact ⟨_, _, _, rfl, .inr List.mem_cons_self⟩
  · have kept : ¬(Formatting.element last lastTag).isElement other = true := by
      simp [Formatting.isElement, Formatting.node?, same]
    rw [if_neg kept]
    exact ⟨_, _, _, rfl, settled.imp (⟨·, same⟩) (List.mem_cons_of_mem _)⟩

theorem LatestOpen.foldl {node : Nat} (latest : state.LatestOpen node)
    (entries : List Formatting) : (entries.foldl reopenEntry state).LatestOpen node := by
  induction entries generalizing state with
  | nil => exact latest
  | cons entry entries ih =>
      refine ih ?_
      cases entry with
      | marker => exact latest
      | element other tag =>
          obtain ⟨last, lastTag, others, listed, settled⟩ := latest.reopenElement other tag
          exact ⟨last, lastTag, others, listed, settled.imp_left And.left⟩

/-- What has been opened again is open. -/
theorem lostFormatting_reopenFormatting (state : State) :
    state.reopenFormatting.lostFormatting = [] := by
  cases listed : state.formatting with
  | nil =>
      have none : state.lostFormatting = [] := by rw [lostFormatting, listed]; rfl
      rw [reopenFormatting_of_nil none, none]
  | cons entry others =>
      cases settled : state.settled entry with
      | true =>
          have none : state.lostFormatting = [] := by
            rw [lostFormatting, listed, List.takeWhile_cons]
            simp [settled]
          rw [reopenFormatting_of_nil none, none]
      | false =>
          cases entry with
          | marker => cases settled
          | element node tag =>
              have lost : state.lostFormatting =
                  (others.takeWhile fun entry => !state.settled entry).reverse ++
                    [.element node tag] := by
                rw [lostFormatting, listed, List.takeWhile_cons]
                simp [settled]
              -- The latest entry is opened last, so none in front of it is lost any more.
              have latest : state.LatestOpen node := ⟨node, tag, others, listed, .inl rfl⟩
              rw [reopenFormatting_eq, lost, List.foldl_append]
              obtain ⟨last, lastTag, rest, listed, settled⟩ := (latest.foldl
                (others.takeWhile fun entry => !state.settled entry).reverse).reopenElement node tag
              have open_ := settled.resolve_left fun ⟨same, other⟩ => other same
              rw [List.foldl_cons, List.foldl_nil, lostFormatting, listed, List.takeWhile_cons,
                State.settled, List.contains_iff_mem.mpr open_]
              rfl

/-! ## Blanks in two parts -/

theorem lostFormatting_insertText (state : State) (content : String) :
    (state.insertText content).lostFormatting = state.lostFormatting := by
  rw [insertText_eq]
  rfl

/-- Inserts blanks into the innermost element, with the formatting that goes on there. -/
def reopenBlank (state : State) (content : String) : State :=
  state.reopenFormatting.insertText content

/-- Inserts blanks with what does not belong into a table moved out. -/
def fosterBlank (state : State) (content : String) : State :=
  { ({ state with fostering := true } : State).reopenBlank content with fostering := false }

theorem reopenBlank_reopenBlank (sound : state.Sound) (one other : String) :
    (state.reopenBlank one).reopenBlank other = state.reopenBlank (one ++ other) := by
  have settled : (state.reopenFormatting.insertText one).lostFormatting = [] := by
    rw [lostFormatting_insertText, lostFormatting_reopenFormatting]
  rw [reopenBlank, reopenBlank, reopenBlank, reopenFormatting_of_nil settled]
  exact insertText_insertText sound.reopenFormatting one other

theorem fostering_reopenBlank (state : State) (content : String) :
    (state.reopenBlank content).fostering = state.fostering := by
  obtain ⟨arena, opened, formatting, same⟩ := sameRules_reopenFormatting state
  rw [reopenBlank, insertText_eq, same]

theorem fosterBlank_fosterBlank (sound : state.Sound) (one other : String) :
    (state.fosterBlank one).fosterBlank other = state.fosterBlank (one ++ other) := by
  have fostered : ({ state with fostering := true } : State).Sound := sound
  have inside := fostering_reopenBlank { state with fostering := true } one
  have joined := reopenBlank_reopenBlank fostered one other
  have same : ({ state.fosterBlank one with fostering := true } : State) =
      ({ state with fostering := true } : State).reopenBlank one := by
    rw [fosterBlank]
    generalize ({ state with fostering := true } : State).reopenBlank one = next at inside
    cases next
    cases inside
    rfl
  rw [fosterBlank, same, joined]
  rfl

/-! ## Blanks as tokens -/

/-- What becomes of blanks. -/
inductive BlankRule where
  | dropped
  | inserted
  | reopened
  | fostered
  /-- The text of a table begins. -/
  | begun
  /-- The text of a table goes on. -/
  | kept
  deriving DecidableEq

def blankRule (state : State) : BlankRule :=
  if state.isForeign (.blank "") then .inserted
  else
    match state.mode with
    | .initial | .beforeHtml | .beforeHead | .inFrames => .dropped
    | .inHead | .afterHead | .inText | .inColumns | .inSelect | .inSelectInTable => .inserted
    | .inBody | .inCaption | .inCell | .inTemplate | .afterBody | .afterDocument => .reopened
    | .inTable | .inTableBody | .inRow => if state.current.fosters then .begun else .fostered
    | .inTableText => .kept

def BlankRule.insert : BlankRule → State → String → State
  | .dropped, state, _ => state
  | .inserted, state, content => state.insertText content
  | .reopened, state, content => state.reopenBlank content
  | .fostered, state, content => state.fosterBlank content
  | .begun, state, content =>
      { state with
        returnMode := state.mode, mode := .inTableText,
        pending := (true, content) :: state.pending }
  | .kept, state, content => { state with pending := (true, content) :: state.pending }

def insertBlank (state : State) (content : String) : State := state.blankRule.insert state content

theorem insertBlank_of_rule {rule : BlankRule} (same : state.blankRule = rule) (content : String) :
    state.insertBlank content = rule.insert state content := by
  rw [insertBlank, same]

theorem isForeign_of_fosters (fosters : state.current.fosters = true) (token : Token) :
    state.isForeign token = false := by
  have space : state.current.space = .html := by
    rw [Element.fosters, Element.isOneOf, Bool.and_eq_true] at fosters
    simpa using fosters.1
  unfold isForeign
  exact if_pos space

theorem stepIn_inTableText (mode : state.mode = .inTableText) (token : Token) :
    state.stepIn token = state.inTableText token := by
  rw [stepIn, mode]

theorem settle_tableText {content : String} (foreign : ¬state.isForeign (.blank content) = true)
    (looked : state.stepIn (.blank content) = state.tableText (.blank content)) (attempts : Nat) :
    settle (attempts + 2) state (.blank content) =
      if state.current.fosters then
        { state with
          returnMode := state.mode, mode := .inTableText,
          pending := (true, content) :: state.pending }
      else state.fosterBlank content := by
  rw [settle, step, if_neg foreign, looked, tableText]
  by_cases fosters : state.current.fosters = true
  · rw [if_pos fosters, if_pos fosters]
    have inside : State.isForeign { state with returnMode := state.mode, mode := .inTableText }
        (.blank content) = false :=
      @isForeign_of_fosters { state with returnMode := state.mode, mode := .inTableText }
        fosters _
    dsimp only
    rw [settle, step, if_neg (by simp [inside])]
    rfl
  · rw [if_neg fosters, if_neg fosters]
    rfl

theorem settle_blank (state : State) (content : String) (attempts : Nat) :
    settle (attempts + 2) state (.blank content) = state.insertBlank content := by
  by_cases foreign : state.isForeign (.blank content) = true
  · have rule : state.blankRule = .inserted := if_pos foreign
    rw [settle, step, if_pos foreign, insertBlank_of_rule rule]
    rfl
  · have rule : state.blankRule = _ := if_neg foreign
    have direct : ∀ next, state.stepIn (.blank content) = .done next →
        settle (attempts + 2) state (.blank content) = next := by
      intro next looked
      rw [settle, step, if_neg foreign, looked]
    have table : state.stepIn (.blank content) = state.tableText (.blank content) →
        state.blankRule = (if state.current.fosters then .begun else .fostered) →
        settle (attempts + 2) state (.blank content) = state.insertBlank content := by
      intro looked rule
      rw [settle_tableText foreign looked, insertBlank_of_rule rule]
      split <;> rfl
    cases mode : state.mode <;> rw [mode] at rule
    case inTable | inTableBody | inRow => exact table (by rw [stepIn, mode]; rfl) rule
    all_goals rw [insertBlank_of_rule rule]
    case inTableText => exact direct _ (stepIn_inTableText mode _)
    all_goals exact direct _ (by rw [stepIn, mode]; rfl)

/-! ## Text that is kept in a table -/

/-- One run of blanks of the kept text is in two parts in the other one. -/
inductive SplitsBlank : List (Bool × String) → List (Bool × String) → Prop where
  | split (one other : String) (before : List (Bool × String)) :
      SplitsBlank ((true, one ++ other) :: before) ((true, other) :: (true, one) :: before)
  | cons (part : Bool × String) {parts others : List (Bool × String)}
      (rest : SplitsBlank parts others) : SplitsBlank (part :: parts) (part :: others)

/-- Both states keep the same text of a table, but for one run of blanks in two parts. -/
structure SamePending (state other : State) : Prop where
  mode : state.mode = .inTableText
  pending : ∃ parts, SplitsBlank state.pending parts ∧ other = { state with pending := parts }

/-- States that go on alike. -/
def Alike (state other : State) : Prop := other = state ∨ state.SamePending other

/-! ### Blanks in two parts -/

section

variable {other : State}

theorem isForeign_of_current (same : other.current = state.current) (token : Token) :
    other.isForeign token = state.isForeign token := by
  unfold isForeign
  rw [same]

theorem not_isForeign_of_rule (rule : state.blankRule ≠ .inserted) :
    ¬state.isForeign (.blank "") = true := fun foreign => rule (if_pos foreign)

theorem mode_of_kept (rule : state.blankRule = .kept) : state.mode = .inTableText := by
  have rules : state.blankRule = _ := if_neg (not_isForeign_of_rule (by rw [rule]; decide))
  rw [rules] at rule
  cases mode : state.mode <;> rw [mode] at rule
  case inTable | inTableBody | inRow =>
    by_cases fosters : state.current.fosters = true <;> simp [fosters] at rule
  all_goals cases rule

theorem blankRule_of_current (mode : other.mode = state.mode)
    (same : other.current = state.current) : other.blankRule = state.blankRule := by
  rw [blankRule, blankRule, isForeign_of_current same, mode, same]

end

theorem blankRule_insertText (state : State) (content : String) :
    (state.insertText content).blankRule = state.blankRule := by
  have frame := insertText_eq state content
  exact blankRule_of_current (by rw [frame])
    (current_of_keeps (keepsElements_insertText state content) (by rw [frame]))

/-- A formatting element that is opened again is ordinary content and no part of a table. -/
theorem blankRule_reopenFormatting (sound : state.Sound)
    (rule : state.blankRule = .reopened ∨ state.blankRule = .fostered) :
    state.reopenFormatting.blankRule = state.blankRule := by
  obtain ⟨arena, opened, formatting, frame⟩ := sameRules_reopenFormatting state
  have mode : state.reopenFormatting.mode = state.mode := by rw [frame]
  -- Only the innermost element can differ, and then it is one that no table moves out.
  rcases current_reopenFormatting state with same | ⟨node, tag, listed, found⟩
  · exact blankRule_of_current mode same
  · have inline := sound.formatting listed
    have foreign : ¬state.isForeign (.blank "") = true := by
      refine not_isForeign_of_rule ?_
      rcases rule with rule | rule <;> rw [rule] <;> decide
    have foreignNext : ¬state.reopenFormatting.isForeign (.blank "") = true := by
      unfold isForeign
      rw [found]
      exact Bool.false_ne_true
    have rules : state.blankRule = _ := if_neg foreign
    have rulesNext : state.reopenFormatting.blankRule = _ := if_neg foreignNext
    rw [rules] at rule ⊢
    rw [rulesNext, mode, found, inline]
    cases mode : state.mode <;> rw [mode] at rule
    case inTable | inTableBody | inRow =>
      by_cases fosters : state.current.fosters = true
      · simp [fosters] at rule
      · simp [fosters]

theorem blankRule_reopenBlank (sound : state.Sound)
    (rule : state.blankRule = .reopened ∨ state.blankRule = .fostered) (content : String) :
    (state.reopenBlank content).blankRule = state.blankRule := by
  rw [reopenBlank, blankRule_insertText, blankRule_reopenFormatting sound rule]

theorem insertBlank_insertBlank (sound : state.Sound) (one other : String) :
    (state.insertBlank (one ++ other)).Alike ((state.insertBlank one).insertBlank other) := by
  cases rule : state.blankRule with
  | dropped =>
      have same : ∀ content, state.insertBlank content = state := insertBlank_of_rule rule
      rw [same, same, same]
      exact .inl rfl
  | inserted =>
      have next : (state.insertText one).blankRule = .inserted :=
        (blankRule_insertText state one).trans rule
      rw [insertBlank_of_rule rule, insertBlank_of_rule rule]
      exact .inl ((insertBlank_of_rule next other).trans (insertText_insertText sound one other))
  | reopened =>
      have next : (state.reopenBlank one).blankRule = .reopened :=
        (blankRule_reopenBlank sound (.inl rule) one).trans rule
      rw [insertBlank_of_rule rule, insertBlank_of_rule rule]
      exact .inl ((insertBlank_of_rule next other).trans (reopenBlank_reopenBlank sound one other))
  | fostered =>
      have next : (state.fosterBlank one).blankRule = .fostered :=
        (@blankRule_reopenBlank { state with fostering := true } sound (.inr rule) one).trans rule
      rw [insertBlank_of_rule rule, insertBlank_of_rule rule]
      exact .inl ((insertBlank_of_rule next other).trans (fosterBlank_fosterBlank sound one other))
  | begun =>
      have foreign : ¬state.isForeign (.blank "") = true :=
        not_isForeign_of_rule (by rw [rule]; decide)
      have next : (BlankRule.begun.insert state one).blankRule = .kept := if_neg foreign
      rw [insertBlank_of_rule rule, insertBlank_of_rule rule, insertBlank_of_rule next]
      exact .inr ⟨rfl, _, .split one other state.pending, rfl⟩
  | kept =>
      have next : (BlankRule.kept.insert state one).blankRule = .kept := rule
      rw [insertBlank_of_rule rule, insertBlank_of_rule rule, insertBlank_of_rule next]
      exact .inr ⟨mode_of_kept rule, _, .split one other state.pending, rfl⟩

/-! ### Blanks behind a start tag -/

theorem reading_insertBlank (state : State) (content : String) :
    (state.insertBlank content).reading = state.reading ∧
      (state.insertBlank content).skipsNewline = state.skipsNewline := by
  have reopened : ∀ state : State, (state.reopenBlank content).reading = state.reading ∧
      (state.reopenBlank content).skipsNewline = state.skipsNewline := by
    intro state
    obtain ⟨arena, opened, formatting, same⟩ := sameRules_reopenFormatting state
    rw [reopenBlank, insertText_eq, same]
    exact ⟨rfl, rfl⟩
  rw [insertBlank]
  cases state.blankRule with
  | dropped | begun | kept => exact ⟨rfl, rfl⟩
  | inserted =>
      rw [BlankRule.insert, insertText_eq]
      exact ⟨rfl, rfl⟩
  | reopened => exact reopened state
  | fostered => exact reopened { state with fostering := true }

/-- The blanks that are left of a text if a line feed at its start is dropped. -/
def shortened (skips : Bool) (content : List Char) : List Char :=
  if skips && content.head? == some '\n' then content.tail else content

theorem withoutNewline_blank {content : List Char} (some : content ≠ []) :
    withoutNewline (.blank (String.ofList content)) =
      if shortened true content = [] then none
      else Option.some (.blank (String.ofList (shortened true content))) := by
  rw [withoutNewline, String.toList_ofList]
  split
  · rfl
  · next rest long =>
      have more : rest ≠ [] := by
        rintro rfl
        exact long rfl
      exact (if_neg more).symm
  · next other =>
      have kept : shortened true content = content := by
        cases content with
        | nil => rfl
        | cons c rest =>
            have first : c ≠ '\n' := by
              rintro rfl
              exact other rest rfl
            simp [shortened, first]
      rw [kept, if_neg some]

theorem take_blank (state : State) {content : List Char} (some : content ≠ []) :
    state.take (.blank (String.ofList content)) =
      if shortened state.skipsNewline content = [] then { state with skipsNewline := false }
      else ({ state with skipsNewline := false } : State).insertBlank
        (String.ofList (shortened state.skipsNewline content)) := by
  have settled : ∀ text, settle (attempts { state with skipsNewline := false })
      { state with skipsNewline := false } (.blank text) =
        insertBlank { state with skipsNewline := false } text := by
    intro text
    obtain ⟨more, enough⟩ : ∃ more, attempts { state with skipsNewline := false } = more + 2 :=
      ⟨_, (Nat.sub_add_cancel (by simp [attempts]; omega)).symm⟩
    rw [enough, settle_blank]
  unfold take
  cases skips : state.skipsNewline with
  | false =>
      have kept : shortened false content = content := rfl
      rw [kept, if_neg some]
      exact settled _
  | true =>
      rw [if_pos rfl, withoutNewline_blank some]
      split
      · rfl
      · exact settled _

theorem take_blank_of_keeping (keeps : state.skipsNewline = false) {content : List Char}
    (some : content ≠ []) :
    state.take (.blank (String.ofList content)) = state.insertBlank (String.ofList content) := by
  have same : ({ state with skipsNewline := false } : State) = state := by rw [← keeps]
  have kept : shortened state.skipsNewline content = content := by simp [shortened, keeps]
  rw [take_blank state some, kept, if_neg some, same]

theorem shortened_append (skips : Bool) {front : List Char} (some : front ≠ [])
    (back : List Char) : shortened skips (front ++ back) = shortened skips front ++ back := by
  cases front with
  | nil => exact absurd rfl some
  | cons c front =>
      by_cases drops : (skips && c == '\n') = true <;> simp [shortened, drops]

/-- Blanks that are read in two parts do what they do when they are read at once. -/
theorem take_blank_append (sound : state.Sound) {front back : List Char} (first : front ≠ [])
    (second : back ≠ []) :
    (state.take (.blank (String.ofList (front ++ back)))).Alike
      ((state.take (.blank (String.ofList front))).take (.blank (String.ofList back))) := by
  rw [take_blank state first, take_blank state (by simp [first]), shortened_append _ first]
  by_cases none : shortened state.skipsNewline front = []
  · rw [if_pos none, none, List.nil_append, if_neg second,
      take_blank_of_keeping (by rfl) second]
    exact .inl rfl
  · have keeps := (reading_insertBlank { state with skipsNewline := false }
      (String.ofList (shortened state.skipsNewline front))).2
    rw [if_neg none, if_neg (by simp [none]), take_blank_of_keeping keeps second,
      String.ofList_append]
    exact @insertBlank_insertBlank { state with skipsNewline := false } sound _ _

/-- Blanks change nothing about how the next characters are read. -/
theorem reading_take_blank (state : State) {content : List Char} (some : content ≠ []) :
    (state.take (.blank (String.ofList content))).reading = state.reading := by
  rw [take_blank state some]
  split
  · rfl
  · exact (reading_insertBlank { state with skipsNewline := false } _).1

end State

end Bindery.Html
