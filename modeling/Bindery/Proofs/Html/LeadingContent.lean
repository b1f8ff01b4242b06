import Bindery.Proofs.Html.Inside
import Bindery.Proofs.Html.Progress
import Bindery.Proofs.Html.TableContent

/-!
# What leads a document

The elements that come first in a document and may stand in its head are put there. From the first
other token on, everything is kept in the body.
-/

set_option autoImplicit false

namespace Bindery.Html

theorem Context.rootNode_mem {element : Nat → Element} {base : Base} {situation : Situation}
    {nodes : List Nat} (context : Context element base situation nodes) :
    rootNode ∈ nodes ∧ (element rootNode).isHtml "html" = true := by
  induction context with
  | root named => exact ⟨by simp, named⟩
  | head _ named | body _ named => exact ⟨by simp, named⟩
  | inside _ _ ih | text _ _ _ ih => exact ⟨List.mem_cons_of_mem _ ih.1, ih.2⟩

theorem Context.body_mem {element : Nat → Element} {node : Nat} {situation : Situation}
    {nodes : List Nat} (context : Context element (.body node) situation nodes) :
    node ∈ nodes ∧ (element node).isHtml "body" = true := by
  obtain ⟨base, same⟩ : ∃ base, base = Base.body node := ⟨_, rfl⟩
  rw [← same] at context
  induction context with
  | root | head => cases same
  | body named => cases same; exact ⟨by simp, named⟩
  | inside _ _ ih | text _ _ _ ih =>
      obtain ⟨inside, named⟩ := ih same
      exact ⟨List.mem_cons_of_mem _ inside, named⟩

theorem Context.mode_of_head {element : Nat → Element} {node : Nat} {mode : Mode} {nodes : List Nat}
    (context : Context element (.head node) (.rules mode) nodes) : mode = .inHead := by
  induction nodes generalizing mode with
  | nil => cases context
  | cons first rest ih =>
      cases context with
      | head => rfl
      | inside opens around =>
          obtain rfl := ih around
          cases opens with
          | content holds => cases holds
          | select flow | table flow => cases flow

theorem Context.of_head {element : Nat → Element} {node : Nat} {situation : Situation}
    {nodes : List Nat} (context : Context element (.head node) situation nodes) :
    (situation = .rules .inHead ∨ situation = .text .inHead) ∧
      ∀ inner ∈ nodes.head?, (element inner).space = .html := by
  cases context with
  | head named =>
      simp only [Element.isHtml, Bool.and_eq_true, decide_eq_true_eq] at named
      exact ⟨.inl rfl, by rintro _ ⟨⟩; exact named.1⟩
  | inside opens around =>
      obtain rfl := around.mode_of_head
      cases opens with
      | content holds => cases holds
      | select flow | table flow => cases flow
  | text _ space around =>
      obtain rfl := around.mode_of_head
      exact ⟨.inr rfl, by rintro _ ⟨⟩; exact space⟩

/-- The root is left open when the head is closed. -/
theorem Context.tail_of_head {element : Nat → Element} {node : Nat} {nodes : List Nat}
    (context : Context element (.head node) (.rules .inHead) nodes) :
    Context element .root (.rules .afterHead) nodes.tail := by
  cases context with
  | head _ named => exact .root named
  | inside opens around =>
      obtain rfl := around.mode_of_head
      cases opens with
      | content holds => cases holds
      | select flow => cases flow

theorem Context.eq_of_root {element : Nat → Element} {nodes : List Nat}
    (context : Context element .root (.rules .afterHead) nodes) :
    nodes = [rootNode] ∧ (element rootNode).isHtml "html" = true := by
  cases context with
  | root named => exact ⟨rfl, named⟩
  | inside opens around =>
      cases opens with
      | content holds => cases holds
      | select _ selects => cases selects

namespace State

variable {base : Base} {node : Nat} {items : List Item} {state next : State} {token : Token}

/-! ## In the body -/

/-- The body is the first element of its name, and holds these items. -/
structure Holds (node : Nat) (items : List Item) (state : State) : Prop where
  sits : state.Sits (.body node)
  document : state.arena.children document = #[rootNode]
  first : ∀ other < node, (state.arena.element? other).any (·.name = "body") = false
  shows : ∃ body extra, state.arena.element? node = some body ∧
    state.arena.span node state.arena.slots.size = body.item :: extra ∧ Supplies items extra

theorem Holds.lands (holds : state.Holds node items) {more : List Item}
    (lands : state.Lands (.body node) next more) : next.Holds node (items ++ more) := by
  obtain ⟨sits, document, first, body, extra, named, shown, supplies⟩ := holds
  obtain ⟨further, added, extended, suppliesMore⟩ := lands
  have inside := Arena.lt_size_of_element? named
  refine ⟨further, extended.document.trans document, fun other before => ?_, body, extra ++ added,
    extended.element?_of_some named, ?_, supplies.append suppliesMore⟩
  · rw [extended.element? other (Nat.lt_trans before inside)]
    exact first other before
  · rw [extended.items node body named, shown, List.cons_append]

theorem Holds.same (holds : state.Holds node items) (same : state.SameContent next)
    (mode : next.mode = state.mode) (returnMode : next.returnMode = state.returnMode) :
    next.Holds node items := by
  have lands : state.Lands (.body node) state [] := ⟨holds.sits, _, .refl _, .refl _⟩
  have kept := holds.lands (lands.same same mode returnMode)
  rwa [List.append_nil] at kept

theorem fits_blank (state : State) (content : String) : state.fits (.blank content) = true := by
  change state.fitsHere (.blank content) = true
  unfold fitsHere
  split
  · rfl
  · split_ifs <;> rfl

theorem ne_doctype_of_fits (fits : state.fits token = true) :
    ∀ declaration, token ≠ .doctype declaration := by
  rintro declaration rfl
  change state.fitsHere (.doctype declaration) = true at fits
  unfold fitsHere at fits
  split at fits
  · cases fits
  · split_ifs at fits <;> cases fits

/-- A token is looked at as it stands, or a line feed is dropped from it. -/
theorem exists_taken (state : State) (declares : ∀ declaration, token ≠ .doctype declaration) :
    ((∃ content, token = .blank content) ∧
        state.take token = { state with skipsNewline := false }) ∨
      ∃ read more,
        (read = token ∨ ∃ content shorter, token = .blank content ∧ read = .blank shorter) ∧
        state.take token = settle (16 + more) { state with skipsNewline := false } read := by
  have looked : ∀ {read : Token}, (∀ declaration, read ≠ .doctype declaration) →
      (if state.skipsNewline then withoutNewline token else some token) = some read →
      state.take token = settle (16 + 4 * (state.opened.length + state.templateModes.length))
        { state with skipsNewline := false } read := by
    intro read declares same
    rw [State.take, same]
    cases read with
    | doctype declaration => exact absurd rfl (declares declaration)
    | _ => rfl
  by_cases skips : state.skipsNewline = true
  · cases token with
    | blank content =>
        rcases Inside.withoutNewline_blank content with none | ⟨shorter, some⟩
        · refine .inl ⟨⟨content, rfl⟩, ?_⟩
          rw [State.take, if_pos skips, none]
        · exact .inr ⟨.blank shorter, _, .inr ⟨content, shorter, rfl, rfl⟩,
            looked (by rintro _ ⟨⟩) (by rw [if_pos skips, some])⟩
    | doctype declaration => exact absurd rfl (declares declaration)
    | _ => exact .inr ⟨_, _, .inl rfl, looked (by rintro _ ⟨⟩) (by rw [if_pos skips]; rfl)⟩
  · exact .inr ⟨token, _, .inl rfl, looked declares (by rw [if_neg skips])⟩

theorem Holds.take (holds : state.Holds node items)
    (fits : State.fits { state with skipsNewline := false } token = true) :
    (state.take token).Holds node (items ++ token.items) := by
  have calm : { state with skipsNewline := false }.Holds node items :=
    holds.same ⟨rfl, rfl, rfl, rfl, rfl, rfl, rfl⟩ rfl rfl
  rcases exists_taken state (ne_doctype_of_fits fits) with
    ⟨⟨content, rfl⟩, taken⟩ | ⟨read, more, same, taken⟩
  · rw [taken]
    exact (List.append_nil items).symm ▸ calm
  · have known : read.items = token.items ∧
        State.fits { state with skipsNewline := false } read = true := by
      rcases same with rfl | ⟨content, shorter, rfl, rfl⟩
      · exact ⟨rfl, fits⟩
      · exact ⟨rfl, fits_blank _ _⟩
    rw [taken, ← known.1]
    have lands := settle_lands (calm.sits.read known.2 0) (10 + more)
    rw [show 0 + 5 + 1 + (10 + more) = 16 + more by omega] at lands
    exact calm.lands lands

/-- The state in which the token of a piece is looked at. -/
def looking (state : State) (piece : Piece) : State :=
  { state with reading := piece.reading, skipsNewline := false }

/-- The tokens of a text, each with the state in which it is looked at; the number bounds the
characters. -/
def readings : Nat → State → List Char → List (State × Token)
  | 0, _, _ => []
  | bound + 1, state, text =>
      let piece := state.piece text
      match piece.token? with
      | none => readings bound (state.behind piece) piece.rest
      | some token =>
          (state.looking piece, token) ::
            if token = .finish then [] else readings bound (state.behind piece) piece.rest

/-- What the tokens show. -/
def contents (readings : List (State × Token)) : List Item := readings.flatMap (·.2.items)

theorem Holds.behind (holds : state.Holds node items) {piece : Piece}
    (read : piece.token? = some token) (fits : (state.looking piece).fits token = true) :
    (state.behind piece).Holds node (items ++ token.items) := by
  have reads : { state with reading := piece.reading }.Holds node items :=
    holds.same ⟨rfl, rfl, rfl, rfl, rfl, rfl, rfl⟩ rfl rfl
  rw [State.behind, read]
  exact reads.take fits

theorem Holds.readWithin (holds : state.Holds node items) {bound : Nat} {text : List Char}
    (fits : ∀ reading ∈ state.readings bound text, reading.1.fits reading.2 = true) :
    (state.readWithin bound text).Holds node (items ++ contents (state.readings bound text)) := by
  induction bound generalizing state items text with
  | zero => exact (List.append_nil items).symm ▸ holds
  | succ bound ih =>
      rw [readWithin_succ]
      rw [readings] at fits ⊢
      cases read : (state.piece text).token? with
      | none =>
          rw [read] at fits
          rw [if_neg (by rintro ⟨⟩)]
          have behind : (state.behind (state.piece text)).Holds node items := by
            rw [State.behind, read]
            exact holds.same ⟨rfl, rfl, rfl, rfl, rfl, rfl, rfl⟩ rfl rfl
          exact ih behind fits
      | some token =>
          rw [read] at fits
          obtain ⟨own, others⟩ := List.forall_mem_cons.mp fits
          have behind := holds.behind read own
          dsimp only
          by_cases ends : token = .finish
          · rw [if_pos (congrArg some ends), if_pos ends, contents, List.flatMap_singleton]
            exact behind
          · rw [if_neg fun same => ends (Option.some.inj same), if_neg ends]
            rw [if_neg ends] at others
            rw [contents, List.flatMap_cons, ← List.append_assoc]
            exact ih behind others

/-! ## In the head -/

/-- The token belongs to what is put into the head, or is dropped there. -/
def leads (state : State) : Token → Bool
  | .startTag tag => leadingNames.contains tag.name
  | .endTag tag => state.mode = .inText || tag.name ≠ "br"
  | .text _ | .null => state.mode = .inText
  | .blank _ | .comment _ => true
  | .doctype _ | .finish => false

/-- Only the head has been opened, and what is open stands in it. -/
structure Headed (state : State) : Prop where
  sits : state.Sits (.head 2)
  formatting : state.formatting = []
  form : state.form? = none
  document : state.arena.children document = #[rootNode]
  holder : state.arena.element? State.document = none
  unopened : ∀ attributes, .element (lowered "body") attributes ∉
    state.arena.span rootNode state.arena.slots.size

/-- Nothing has been read that a document shows. -/
def Unread (state : State) : Prop :=
  (state.mode = .initial ∨ state.mode = .beforeHtml) ∧ ∃ mode reading lenient skips, state =
    { State.start with
      mode := mode, reading := reading, lenient := lenient, skipsNewline := skips }

theorem Headed.exists_root (headed : state.Headed) :
    ∃ tag, state.arena.element? rootNode = some tag :=
  (headed.sits.laid.elements _ headed.sits.laid.context.rootNode_mem.1).2

theorem Headed.lands (headed : state.Headed) (lands : state.Lands (.head 2) next items)
    (formatting : next.formatting = state.formatting) (form : next.form? = state.form?)
    (plain : ∀ attributes, .element (lowered "body") attributes ∉ items) : next.Headed := by
  obtain ⟨sits, extra, extended, supplies⟩ := lands
  obtain ⟨tag, named⟩ := headed.exists_root
  refine ⟨sits, formatting.trans headed.formatting, form.trans headed.form,
    extended.document.trans headed.document, ?_, fun attributes member => ?_⟩
  · have inside : State.document < state.arena.slots.size :=
      Nat.lt_trans (by decide : State.document < rootNode) (Arena.lt_size_of_element? named)
    exact (extended.element? State.document inside).trans headed.holder
  rw [extended.items rootNode tag named] at member
  rcases List.mem_append.mp member with before | added
  · exact headed.unopened attributes before
  · have name : (writtenNames.map lowered).contains (lowered "body") = true := by decide
    have written : Item.element (lowered "body") attributes ∈ extra.filter Item.isWritten :=
      List.mem_filter.mpr ⟨added, name⟩
    rw [supplies.written] at written
    exact plain attributes (List.mem_filter.mp written).1

theorem Headed.mode (headed : state.Headed) :
    state.mode = .inHead ∧ state.Laid (.head 2) (.rules .inHead) ∨
      state.mode = .inText ∧ state.returnMode = .inHead := by
  have laid := headed.sits.laid
  rcases laid.context.of_head.1 with rules | text
  · rw [rules] at laid
    refine .inl ⟨mode_of_situation rules fun pending => ?_, laid⟩
    have table := headed.sits.tableText pending
    rw [State.situation, pending] at rules
    rw [Situation.rules.inj rules] at table
    exact absurd table (by decide)
  · refine .inr ?_
    unfold situation at text
    split at text
    · next inText => exact ⟨inText, Situation.text.inj text⟩
    · cases text
    · cases text

theorem fits_eq_fitsHere (html : state.current.space = .html) :
    state.fits token = state.fitsHere token := by
  cases token with
  | startTag tag =>
      have same : state.isForeign (.startTag tag) = false := isForeign_of_html html
      rw [State.fits, same, if_neg Bool.noConfusion]
  | _ => rfl

theorem Headed.current (headed : state.Headed) : state.current.space = .html := by
  obtain ⟨inner, rest, opened⟩ := headed.sits.laid.context.exists_cons
  have html := headed.sits.laid.context.of_head.2
  rw [State.current, opened]
  exact html inner (by rw [opened]; rfl)

theorem sharedStart_eq {tag : Tag} (other : tag.name ≠ "template") :
    (state.sharedStart tag).formatting = state.formatting ∧
      (state.sharedStart tag).form? = state.form? := by
  have text : ∀ reading, (state.openText tag reading).formatting = state.formatting ∧
      (state.openText tag reading).form? = state.form? := by
    intro reading
    rw [State.openText, State.openTag, insertOpen_eq]
    exact ⟨rfl, rfl⟩
  unfold State.sharedStart
  split_ifs with leaf
  · have inserted : state.insertClosed tag.element =
        (state.create tag.element).1.insertNode state.place (state.create tag.element).2 := rfl
    rw [inserted, insertNode_eq]
    exact ⟨rfl, rfl⟩
  · exact text _
  · exact text _
  · exact text _

/-- The name of a tag that fits is none of a document as a whole. -/
theorem not_root_of_fitsFlow {mode : Mode} (fits : state.fitsFlow mode token = true)
    (other : mode ∉ [Mode.inCaption, .inCell]) :
    ∀ tag, token = .startTag tag ∨ token = .endTag tag → tag.name ∉ rootNames := by
  have apart : [Mode.inCaption, .inCell].contains mode = false :=
    Bool.eq_false_iff.mpr fun member => other (List.contains_iff_mem.mp member)
  rintro tag (rfl | rfl) root
  · have listed : (rootNames ++ tablePartNames).contains tag.name = true :=
      List.contains_iff_mem.mpr (List.mem_append_left _ root)
    simp only [fitsFlow, startFitsFlow, listed, apart] at fits
    simp at fits
  · have listed : rootNames.contains tag.name = true := List.contains_iff_mem.mpr root
    simp only [fitsFlow, listed] at fits
    simp at fits

theorem insertText_keeps (state : State) (content : String) :
    (state.insertText content).formatting = state.formatting ∧
      (state.insertText content).form? = state.form? := by
  rw [insertText_eq]
  exact ⟨rfl, rfl⟩

theorem element_not_mem_textItems (name : List Char) (attributes : List (List Char × String))
    (content : String) : Item.element name attributes ∉ textItems content := by
  intro member
  obtain ⟨c, -, same⟩ := List.mem_map.mp member
  cases same

/-- What leads is put into the head. -/
theorem Headed.readInHead (headed : state.Headed) (laid : state.Laid (.head 2) (.rules .inHead))
    (same : state.mode = .inHead) (fits : state.fitsFlow .inHead token = true)
    (leads : state.leads token = true) :
    ∃ next, state.inHead token = .done next ∧ next.Headed := by
  have root := not_root_of_fitsFlow fits (by decide)
  cases token with
  | blank content =>
      obtain ⟨formatting, form⟩ := insertText_keeps state content
      have lands := (laid.insertBlank content).lands same
      exact ⟨_, rfl, headed.lands lands formatting form (by simp)⟩
  | comment content =>
      have inserted : state.insertComment content =
          { state with arena := (state.arena.add (.comment content)).1 }.insertNode state.place
            (state.arena.add (.comment content)).2 := rfl
      refine ⟨_, rfl, headed.lands ((laid.insertComment content).lands same) ?_ ?_ (by simp)⟩ <;>
        rw [inserted, insertNode_eq]
  | startTag tag =>
      have named : ∀ name ∈ rootNames, tag.name ≠ name := by
        rintro name member rfl
        exact root tag (.inl rfl) member
      have known : tag.name ∈ leadingNames := List.contains_iff_mem.mp leads
      have other : tag.name ≠ "template" := named _ (by decide)
      have shared : (tag.name = "noscript" || sharedStarts.contains tag.name) = true := by
        simpa [leadingNames] using known
      obtain ⟨formatting, form⟩ := sharedStart_eq other
      have lands := laid.sharedStart same known other
      refine ⟨state.sharedStart tag, ?_, headed.lands lands formatting form fun _ member => ?_⟩
      · rw [State.inHead, if_neg (named _ (by decide)), if_neg (named _ (by decide)),
          if_pos shared]
      · have names : ∀ name ∈ leadingNames, lowered "body" ≠ lowered name := by decide
        exact names _ known (Item.element.inj (List.mem_singleton.mp member)).1
  | endTag tag =>
      have named : ∀ name ∈ rootNames, tag.name ≠ name := by
        rintro name member rfl
        exact root tag (.inr rfl) member
      have notBreak : tag.name ≠ "br" := by simpa [State.leads, same] using leads
      refine ⟨state, ?_, headed⟩
      rw [State.inHead, if_neg (named _ (by decide)), if_neg (named _ (by decide)), if_neg]
      intro early
      simp only [List.contains_iff_mem, List.mem_cons, List.not_mem_nil, or_false] at early
      rcases early with body | html | br
      · exact named _ (by decide) body
      · exact named _ (by decide) html
      · exact notBreak br
  | text | null => simp [State.leads, same] at leads
  | finish | doctype => cases leads

/-- What stands in an element of the head is put there. -/
theorem Headed.readInText (headed : state.Headed) (same : state.mode = .inText)
    (fits : fitsText token = true) (goes : token ≠ .finish) :
    ∃ next, state.inText token = .done next ∧ next.Headed := by
  have lands := headed.sits.readInText same fits goes 0
  cases token with
  | blank content =>
      obtain ⟨formatting, form⟩ := insertText_keeps state content
      exact ⟨_, rfl, headed.lands lands formatting form (by simp [Token.items])⟩
  | text content =>
      obtain ⟨formatting, form⟩ := insertText_keeps state content
      exact ⟨_, rfl, headed.lands lands formatting form fun attributes =>
        element_not_mem_textItems _ attributes content⟩
  | comment | null => exact ⟨_, rfl, headed⟩
  | endTag tag => exact ⟨_, rfl, headed.lands lands rfl rfl (by simp [Token.items])⟩
  | startTag | doctype => cases fits
  | finish => exact absurd rfl goes

theorem Headed.read (headed : state.Headed) (fits : state.fits token = true)
    (leads : state.leads token = true) :
    ∃ next, state.step token = .done next ∧ next.Headed := by
  rw [fits_eq_fitsHere headed.current] at fits
  rw [step_of_html headed.current, State.stepIn]
  rcases headed.mode with ⟨same, laid⟩ | ⟨same, -⟩
  · have situation : state.situation = .rules .inHead := by rw [State.situation, same]
    rw [fitsHere, situation] at fits
    rw [same]
    exact headed.readInHead laid same fits leads
  · have situation : state.situation = .text state.returnMode := by rw [State.situation, same]
    have goes : token ≠ .finish := by
      rintro rfl
      cases leads
    rw [fitsHere, situation] at fits
    rw [same]
    exact headed.readInText same fits goes

/-! ## Opening the body -/

/-- The token opens the head, whether or not it stays there. -/
def begins : Token → Prop
  | .startTag tag => tag.name ∉ rootNames
  | .endTag tag => tag.name = "br"
  | .text _ | .null | .finish => True
  | .blank _ | .comment _ | .doctype _ => False

/-- The token opens the body. -/
def isLate : Token → Prop
  | .startTag tag => tag.name ∉ rootNames ++ leadingNames
  | token => begins token

theorem isLate_of_leads {mode : Mode} (fits : state.fitsFlow mode token = true)
    (other : mode ∉ [Mode.inCaption, .inCell]) (late : state.leads token = false)
    (untext : state.mode ≠ .inText) : isLate token := by
  have root := not_root_of_fitsFlow fits other
  cases token with
  | startTag tag =>
      intro member
      rcases List.mem_append.mp member with named | leading
      · exact root tag (.inl rfl) named
      · rw [State.leads, List.contains_iff_mem.mpr leading] at late
        cases late
  | endTag tag => simpa [State.leads, untext, isLate, begins] using late
  | text | null | finish => trivial
  | blank | comment => cases late
  | doctype => cases fits

theorem step_inHead_of_late (late : isLate token) :
    state.inHead token = .again (state.pop.withMode .afterHead) := by
  cases token with
  | startTag tag =>
      simp only [isLate, List.mem_append, not_or] at late
      have named : ∀ name ∈ rootNames, tag.name ≠ name := by
        rintro name member rfl
        exact late.1 member
      have unshared : ¬ (tag.name = "noscript" || sharedStarts.contains tag.name) = true := by
        simpa [leadingNames] using late.2
      rw [State.inHead, if_neg (named _ (by decide)), if_neg (named _ (by decide)), if_neg unshared]
  | endTag tag =>
      have named : tag.name = "br" := late
      rw [State.inHead, named]
      rfl
  | text | null | finish => rfl
  | blank | comment | doctype => cases late

theorem step_afterHead_of_late (late : isLate token) :
    state.afterHead token = .again ((state.openName "body").withMode .inBody) := by
  cases token with
  | startTag tag =>
      simp only [isLate, List.mem_append, not_or] at late
      have named : ∀ name ∈ rootNames, tag.name ≠ name := by
        rintro name member rfl
        exact late.1 member
      have unshared : ¬ sharedStarts.contains tag.name = true := fun shared =>
        late.2 (List.mem_cons_of_mem _ (List.contains_iff_mem.mp shared))
      rw [State.afterHead, if_neg (named _ (by decide)), if_neg (named _ (by decide)),
        if_neg (named _ (by decide)), if_neg unshared, if_neg (named _ (by decide))]
  | endTag tag =>
      have named : tag.name = "br" := late
      rw [State.afterHead, named]
      rfl
  | text | null | finish => rfl
  | blank | comment | doctype => cases late

theorem splits_of_empty (empty : state.formatting = []) (name : String) :
    state.splits name = false := by
  rw [splits, splitOnce, recentFormatting, empty]
  rfl

theorem reopenFormatting_of_empty (empty : state.formatting = []) :
    state.reopenFormatting = state := by
  rw [reopenFormatting, empty]
  rfl

/-- Where no formatting goes on and no form is open, it does not matter what is open. -/
theorem fitsFlow_of_empty {other : State} {mode : Mode} (fits : state.fitsFlow mode token = true)
    (flow : mode ∉ [Mode.inCaption, .inCell]) (empty : other.formatting = [])
    (form : other.form? = none) (further : Mode) : other.fitsFlow further token = true := by
  cases token with
  | startTag tag =>
      have apart : [Mode.inCaption, .inCell].contains mode = false :=
        Bool.eq_false_iff.mpr fun member => flow (List.contains_iff_mem.mp member)
      have start : state.startFitsFlow tag = true := by
        rwa [fitsFlow, apart, Bool.false_and, Bool.or_false] at fits
      have named : (!(rootNames ++ tablePartNames).contains tag.name) = true := by
        rw [startFitsFlow, Bool.and_eq_true, Bool.and_eq_true, Bool.and_eq_true] at start
        exact start.1.1.1
      rw [fitsFlow, startFitsFlow, named, form, splits_of_empty empty,
        reopenFormatting_of_empty empty, splits_of_empty empty]
      simp
  | endTag tag =>
      rw [fitsFlow, Bool.and_eq_true] at fits
      rw [fitsFlow, fits.1, splits_of_empty empty]
      simp
  | doctype => cases fits
  | _ => rfl

theorem Headed.not_body (headed : state.Headed) {other : Nat} :
    (state.arena.element? other).any (·.name = "body") = false := by
  cases there : state.arena.element? other with
  | none => rfl
  | some tag =>
      refine Bool.eq_false_iff.mpr fun body => ?_
      have named : tag.name = "body" := by simpa using body
      have above : other ≠ 0 := by
        rintro rfl
        have none : state.arena.element? 0 = none := headed.holder
        rw [none] at there
        cases there
      refine headed.unopened (tag.attributes.map fun item => (lowered item.writtenName, item.value))
        (List.mem_flatMap.mpr ⟨other, ?_, ?_⟩)
      · have inside := Arena.lt_size_of_element? there
        exact List.mem_range'_1.mpr ⟨by unfold rootNode; omega, by unfold rootNode; omega⟩
      · rw [Arena.itemsOf_of_element? there, Element.item, named]
        exact List.mem_singleton_self _

theorem Laid.openBody (laid : state.Laid .root (.rules .afterHead))
    (document : state.arena.children document = #[rootNode])
    (first : ∀ other, (state.arena.element? other).any (·.name = "body") = false) :
    Holds state.arena.slots.size [] ((state.openName "body").withMode .inBody) := by
  have enters : ∀ {element : Nat → Element} {nodes},
      element state.arena.slots.size = .ofName "body" [] →
      Context element .root (.rules .afterHead) nodes →
      Context element (.body state.arena.slots.size) (.rules .inBody)
        (state.arena.slots.size :: nodes) := by
    intro element nodes same context
    obtain ⟨rfl, named⟩ := context.eq_of_root
    exact .body (same ▸ by decide) named
  have other : (Element.ofName "body" []).isHtml "template" = false := by decide
  obtain ⟨inner, rest, parent, -, -, -, inserted⟩ := laid.exists_insertOpen other
  obtain ⟨⟨opened, ⟨extra, extended, -⟩, -⟩, own⟩ := laid.insertOpen other enters
  have entered : ((state.openName "body").withMode .inBody).Laid (.body state.arena.slots.size)
      (.rules .inBody) := opened.same ⟨rfl, rfl, rfl, rfl, rfl, rfl, rfl⟩
  rw [inserted] at own
  refine ⟨entered.sits rfl, extended.document.trans document, fun other before => ?_,
    .ofName "body" [], [], ?_, ?_, .refl _⟩
  · have kept := extended.element? other before
    change ((state.openName "body").arena.element? other).any (·.name = "body") = false
    rw [State.openName, kept]
    exact first other
  · change (state.openName "body").arena.element? _ = _
    rw [State.openName, inserted]
    exact own
  · change (state.openName "body").arena.span _ (state.openName "body").arena.slots.size = _
    rw [State.openName, inserted]
    dsimp only at own ⊢
    rw [Arena.size_grow, Arena.span_cons _ (Nat.lt_succ_self _), Arena.itemsOf_of_element? own,
      Arena.span_self, List.append_nil]

/-- The body is opened behind the head. -/
theorem Headed.openBody (headed : state.Headed) (same : state.mode = .inHead)
    (fits : state.fits token = true) (late : state.leads token = false) :
    ∃ node fresh, Holds node [] fresh ∧ fresh.fits token = true ∧
      ∀ attempts, settle (attempts + 2) state token = settle attempts fresh token := by
  have situation : state.situation = .rules .inHead := by rw [State.situation, same]
  have laid : state.Laid (.head 2) (.rules .inHead) := situation ▸ headed.sits.laid
  rw [fits_eq_fitsHere headed.current, fitsHere, situation] at fits
  have opens := isLate_of_leads fits (by decide) late (by rw [same]; decide)
  have left : state.Reaches .root (.rules .afterHead) state.pop [] :=
    laid.closing (List.tail_sublist _) laid.context.tail_of_head
  obtain ⟨behind, closed⟩ : ∃ behind, behind = state.pop.withMode .afterHead := ⟨_, rfl⟩
  have laidBehind : behind.Laid .root (.rules .afterHead) := closed ▸ Laid.entered left
  have holds : Holds behind.arena.slots.size [] ((behind.openName "body").withMode .inBody) :=
    laidBehind.openBody (closed ▸ headed.document) fun other => by
      rw [closed]
      exact headed.not_body
  refine ⟨_, _, holds, ?_, fun attempts => ?_⟩
  · have html : ((behind.openName "body").withMode .inBody).current.space = .html := by
      change (behind.openName "body").current.space = .html
      rw [State.openName, current_insertOpen]
      rfl
    have empty : ((behind.openName "body").withMode .inBody).formatting = [] := by
      change (behind.openName "body").formatting = []
      rw [State.openName, insertOpen_eq, closed]
      exact headed.formatting
    have form : ((behind.openName "body").withMode .inBody).form? = none := by
      change (behind.openName "body").form? = none
      rw [State.openName, insertOpen_eq, closed]
      exact headed.form
    rw [fits_eq_fitsHere html]
    exact fitsFlow_of_empty fits (by decide) empty form _
  · have first : state.step token = .again behind := by
      rw [step_of_html headed.current, State.stepIn, same, closed]
      exact step_inHead_of_late opens
    have html : behind.current.space = .html := by
      obtain ⟨opened, named⟩ := laidBehind.context.eq_of_root
      simp only [Element.isHtml, Bool.and_eq_true, decide_eq_true_eq] at named
      rw [State.current, opened]
      exact named.1
    have second : behind.step token = .again ((behind.openName "body").withMode .inBody) := by
      have mode : behind.mode = .afterHead := by rw [closed]; rfl
      rw [step_of_html html, State.stepIn, mode]
      exact step_afterHead_of_late opens
    rw [settle, first]
    dsimp only
    rw [settle, second]

/-- Behind the first late token the body holds what the token shows. -/
theorem Headed.settle_late (headed : state.Headed) (fits : state.fits token = true)
    (late : state.leads token = false) (more : Nat) :
    ∃ node, (settle (9 + more) state token).Holds node token.items := by
  have opened : ∀ {state : State}, state.Headed → state.mode = .inHead →
      state.fits token = true → state.leads token = false → ∀ more,
      ∃ node, (settle (8 + more) state token).Holds node token.items := by
    intro state headed same fits late more
    obtain ⟨node, fresh, holds, fitsThere, settled⟩ := headed.openBody same fits late
    have lands := settle_lands (holds.sits.read fitsThere 0) more
    rw [show 0 + 5 + 1 + more = 6 + more by omega] at lands
    refine ⟨node, ?_⟩
    rw [show 8 + more = 6 + more + 2 by omega, settled]
    exact holds.lands lands
  rcases headed.mode with ⟨same, -⟩ | ⟨same, returns⟩
  · rw [show 9 + more = 8 + (1 + more) by omega]
    exact opened headed same fits late (1 + more)
  · have situation : state.situation = .text state.returnMode := by rw [State.situation, same]
    rw [fits_eq_fitsHere headed.current, fitsHere, situation] at fits
    have ends : token = .finish := by
      cases token with
      | finish => rfl
      | startTag | doctype => cases fits
      | _ => simp [State.leads, same] at late
    subst ends
    have laid : state.Laid (.head 2) (.text .inHead) :=
      returns ▸ situation ▸ headed.sits.laid
    have closed : state.Lands (.head 2) (state.pop.withMode state.returnMode) [] := by
      rw [returns]
      exact laid.closeText.landsIn
    have left := headed.lands closed rfl rfl (by simp)
    have stepped : state.step .finish = .again (state.pop.withMode state.returnMode) := by
      rw [step_of_html headed.current, State.stepIn, same]
      rfl
    have fitsThere : (state.pop.withMode state.returnMode).fits .finish = true := by
      rw [fits_eq_fitsHere left.current, returns]
      rfl
    rw [show 9 + more = 8 + more + 1 by omega, settle, stepped]
    exact opened left returns fitsThere rfl more

theorem Headed.settle_leads (headed : state.Headed) (fits : state.fits token = true)
    (leads : state.leads token = true) (more : Nat) : (settle (1 + more) state token).Headed := by
  obtain ⟨next, stepped, left⟩ := headed.read fits leads
  rw [Nat.add_comm, settle, stepped]
  exact left

/-! ## The beginning of a document -/

theorem inOrder_insideHead : insideHead.arena.InOrder fun _ => 3 where
  stops node small := ⟨small, Nat.le_refl _⟩
  tiles node small := by
    have nodes : node = 0 ∨ node = 1 ∨ node = 2 := by
      change node < 3 at small
      omega
    rcases nodes with rfl | rfl | rfl
    · exact ⟨rfl, by decide, rfl⟩
    · exact ⟨rfl, by decide, rfl⟩
    · rfl
  nested _ _ _ _ _ := Nat.le_refl _
  leaf node positive void := by
    by_cases small : node < insideHead.arena.slots.size
    · have nodes : node = 1 ∨ node = 2 := by
        change node < 3 at small
        omega
      rcases nodes with rfl | rfl
      · cases void (.ofName "html" []) rfl
      · rfl
    · rw [Arena.children, Arena.slot?, Array.getElem?_eq_none (Nat.le_of_not_lt small)]

theorem laid_insideHead : insideHead.Laid (.head 2) (.rules .inHead) where
  order := ⟨_, inOrder_insideHead, fun _ _ => rfl⟩
  elements := by
    have known : ∀ node ∈ [2, 1], 0 < node ∧ (insideHead.arena.element? node).isSome := by decide
    exact fun node member => (known node member).imp_right Option.isSome_iff_exists.mp
  descending := by
    change [2, 1].Pairwise (· > ·)
    decide
  context := .head (by decide) (by decide)
  formatting := by rintro node tag ⟨⟩
  form := by rintro node ⟨⟩
  templates := rfl
  fostering := rfl
  pending := by rintro part ⟨⟩

theorem headed_insideHead (reading : Reading) (lenient skips : Bool) :
    Headed { insideHead with reading := reading, lenient := lenient, skipsNewline := skips } where
  sits := by
    have laid : State.Laid (.head 2) (.rules .inHead)
        { insideHead with reading := reading, lenient := lenient, skipsNewline := skips } :=
      laid_insideHead.same ⟨rfl, rfl, rfl, rfl, rfl, rfl, rfl⟩
    exact laid.sits rfl
  formatting := rfl
  form := rfl
  document := rfl
  holder := rfl
  unopened attributes member := by
    have shown : insideHead.arena.span rootNode insideHead.arena.slots.size =
        [(Element.ofName "html" []).item, (Element.ofName "head" []).item] := rfl
    have named : lowered "body" ≠ lowered "html" ∧ lowered "body" ≠ lowered "head" := by decide
    change _ ∈ insideHead.arena.span rootNode insideHead.arena.slots.size at member
    rw [shown, List.mem_cons, List.mem_singleton] at member
    rcases member with same | same
    · exact named.1 (Item.element.inj same).1
    · exact named.2 (Item.element.inj same).1

theorem step_initial_of_begins (begins : begins token) (same : state.mode = .initial)
    (html : state.current.space = .html) :
    state.step token = .again { state with lenient := true, mode := .beforeHtml } := by
  rw [step_of_html html, State.stepIn, same]
  cases token with
  | blank | comment | doctype => cases begins
  | _ => rfl

theorem step_beforeHtml_of_begins (begins : begins token) (same : state.mode = .beforeHtml)
    (html : state.current.space = .html) :
    state.step token = .again ((state.openRoot (.ofName "html" [])).withMode .beforeHead) := by
  rw [step_of_html html, State.stepIn, same]
  cases token with
  | blank | comment | doctype => cases begins
  | startTag tag =>
      have named : tag.name ≠ "html" := fun html => begins (html ▸ by decide)
      exact if_neg named
  | endTag tag =>
      have named : tag.name = "br" := begins
      dsimp only
      rw [State.beforeHtml, named]
      rfl
  | text | null | finish => rfl

theorem step_beforeHead_of_begins (begins : begins token) (same : state.mode = .beforeHead)
    (html : state.current.space = .html) :
    state.step token = .again (state.openHead (.ofName "head" [])) := by
  rw [step_of_html html, State.stepIn, same]
  cases token with
  | blank | comment | doctype => cases begins
  | startTag tag =>
      have notHtml : tag.name ≠ "html" := fun html => begins (html ▸ by decide)
      have notHead : tag.name ≠ "head" := fun head => begins (head ▸ by decide)
      exact (if_neg notHtml).trans (if_neg notHead)
  | endTag tag =>
      have named : tag.name = "br" := begins
      dsimp only
      rw [State.beforeHead, named]
      rfl
  | text | null | finish => rfl

/-- The first token that counts opens the root and the head. -/
theorem Unread.openHead (unread : state.Unread) (opens : begins token) :
    ∃ head, head.Headed ∧ head.mode = .inHead ∧ ∃ count ≤ 3, ∀ attempts,
      settle (attempts + count) state token = settle attempts head token := by
  obtain ⟨early, mode, reading, lenient, skips, rfl⟩ := unread
  have head : ∀ lenient attempts,
      settle (attempts + 2)
          { State.start with
            mode := .beforeHtml, reading := reading, lenient := lenient, skipsNewline := skips }
          token =
        settle attempts
          { insideHead with reading := reading, lenient := lenient, skipsNewline := skips }
          token := by
    intro lenient attempts
    rw [settle, step_beforeHtml_of_begins opens rfl rfl]
    dsimp only
    rw [settle, step_beforeHead_of_begins opens rfl rfl]
    rfl
  rcases early with initial | beforeHtml
  · refine ⟨_, headed_insideHead reading true skips, rfl, 3, by decide, fun attempts => ?_⟩
    rw [← head true attempts, settle, step_initial_of_begins opens initial rfl]
  · refine ⟨_, headed_insideHead reading lenient skips, rfl, 2, by decide, fun attempts => ?_⟩
    rw [← head lenient attempts]
    cases beforeHtml
    rfl

theorem Unread.fitsFlow (unread : state.Unread) (fits : state.fits token = true) :
    ∃ mode ∉ [Mode.inCaption, .inCell], state.fitsFlow mode token = true := by
  obtain ⟨early, mode, reading, lenient, skips, rfl⟩ := unread
  rw [fits_eq_fitsHere rfl] at fits
  rcases early with initial | beforeHtml
  · cases initial
    exact ⟨.initial, by decide, fits⟩
  · cases beforeHtml
    exact ⟨.beforeHtml, by decide, fits⟩

theorem Unread.mode_ne (unread : state.Unread) : state.mode ≠ .inText := by
  rcases unread.1 with initial | beforeHtml
  · rw [initial]
    decide
  · rw [beforeHtml]
    decide

/-- A token that fits the beginning of a document fits its head. -/
theorem Unread.exists_head (unread : state.Unread) (opens : begins token)
    (fits : state.fits token = true) :
    ∃ head, head.Headed ∧ head.mode = .inHead ∧ head.fits token = true ∧ ∃ count ≤ 3, ∀ attempts,
      settle (attempts + count) state token = settle attempts head token := by
  obtain ⟨head, headed, inHead, count, few, settled⟩ := unread.openHead opens
  obtain ⟨mode, flow, fitsFlow⟩ := unread.fitsFlow fits
  refine ⟨head, headed, inHead, ?_, count, few, settled⟩
  have situation : head.situation = .rules .inHead := by rw [State.situation, inHead]
  rw [fits_eq_fitsHere headed.current, fitsHere, situation]
  exact fitsFlow_of_empty fitsFlow flow headed.formatting headed.form _

theorem Unread.settle_late (unread : state.Unread) (fits : state.fits token = true)
    (late : state.leads token = false) (more : Nat) :
    ∃ node, (settle (12 + more) state token).Holds node token.items := by
  obtain ⟨mode, flow, fitsFlow⟩ := unread.fitsFlow fits
  have opens := isLate_of_leads fitsFlow flow late unread.mode_ne
  have begins : begins token := by
    cases token with
    | startTag tag => exact fun root => opens (List.mem_append_left _ root)
    | _ => exact opens
  obtain ⟨head, headed, inHead, fitsHead, count, few, settled⟩ := unread.exists_head begins fits
  have lateHead : head.leads token = false := by
    cases token with
    | startTag tag => exact late
    | endTag tag =>
        have named : tag.name = "br" := opens
        simp [State.leads, inHead, named]
    | text | null => simp [State.leads, inHead]
    | blank | comment | doctype => cases opens
    | finish => rfl
  obtain ⟨node, holds⟩ := headed.settle_late fitsHead lateHead (3 - count + more)
  refine ⟨node, ?_⟩
  rw [show 12 + more = 9 + (3 - count + more) + count by omega, settled]
  exact holds

theorem Unread.current (unread : state.Unread) : state.current.space = .html := by
  obtain ⟨-, mode, reading, lenient, skips, rfl⟩ := unread
  rfl

/-- What is dropped before the root leaves nothing. -/
theorem Unread.settle_dropped (unread : state.Unread) {dropped : Token}
    (first : ∀ state : State, state.initial dropped = .done state ∨
      state.initial dropped = .again { state with lenient := true, mode := .beforeHtml })
    (second : ∀ state : State, state.beforeHtml dropped = .done state) (more : Nat) :
    (settle (2 + more) state dropped).Unread := by
  have past : ∀ {state : State}, state.Unread → state.mode = .beforeHtml → ∀ more,
      (settle (1 + more) state dropped).Unread := by
    intro state unread same more
    have stepped : state.step dropped = .done state := by
      rw [step_of_html unread.current, State.stepIn, same]
      exact second state
    rw [Nat.add_comm, settle, stepped]
    exact unread
  rcases unread.1 with initial | beforeHtml
  · have stepped : state.step dropped = state.initial dropped := by
      rw [step_of_html unread.current, State.stepIn, initial]
    rcases first state with done | again
    · rw [Nat.add_comm, settle, stepped, done]
      exact unread
    · rw [show 2 + more = 1 + more + 1 by omega, settle, stepped, again]
      obtain ⟨-, mode, reading, lenient, skips, rfl⟩ := unread
      exact past ⟨.inr rfl, .beforeHtml, reading, true, skips, rfl⟩ rfl more
  · rw [show 2 + more = 1 + (1 + more) by omega]
    exact past unread beforeHtml (1 + more)

/-- What leads opens the head and stands in it, or is dropped. -/
theorem Unread.settle_leads (unread : state.Unread) (fits : state.fits token = true)
    (leads : state.leads token = true) (more : Nat) :
    token.items = [] ∧ (settle (4 + more) state token).Unread ∨
      (∃ item ∈ token.items, item.isWritten = true) ∧ (settle (4 + more) state token).Headed := by
  obtain ⟨mode, flow, fitsFlow⟩ := unread.fitsFlow fits
  have root := not_root_of_fitsFlow fitsFlow flow
  rw [show 4 + more = 2 + (2 + more) by omega]
  cases token with
  | startTag tag =>
      have known : tag.name ∈ leadingNames := List.contains_iff_mem.mp leads
      have opens : begins (.startTag tag) := root tag (.inl rfl)
      obtain ⟨head, headed, inHead, fitsHead, count, few, settled⟩ := unread.exists_head opens fits
      have written : ∀ name ∈ leadingNames,
          (writtenNames.map lowered).contains (lowered name) = true := by decide
      refine .inr ⟨⟨tag.item, List.mem_singleton_self _, written _ known⟩, ?_⟩
      rw [show 2 + (2 + more) = 1 + (3 - count + more) + count by omega, settled]
      exact headed.settle_leads fitsHead leads _
  | blank content | comment content =>
      exact .inl ⟨rfl, unread.settle_dropped (fun _ => .inl rfl) (fun _ => rfl) _⟩
  | endTag tag =>
      have notBreak : tag.name ≠ "br" := by simpa [State.leads, unread.mode_ne] using leads
      have late : ¬ passesEarly tag.name = true := by
        intro early
        have names : ∀ name ∈ ["head", "body", "html", "br"], name ∈ rootNames ∨ name = "br" := by
          decide
        rcases names _ (List.contains_iff_mem.mp early) with named | br
        · exact root tag (.inr rfl) named
        · exact notBreak br
      have dropped : ∀ state : State, state.beforeHtml (.endTag tag) = .done state := fun _ =>
        if_neg late
      exact .inl ⟨rfl, unread.settle_dropped (fun _ => .inr rfl) dropped _⟩
  | text | null => simp [State.leads, unread.mode_ne] at leads
  | finish | doctype => cases leads

/-! ## Reading a document -/

/-- What has been read leads, and shows these items. -/
inductive Leading (lead : List Item) (state : State) : Prop where
  | unread : lead = [] → state.Unread → Leading lead state
  | headed : (∃ item ∈ lead, item.isWritten = true) → state.Headed → Leading lead state

theorem Unread.same (unread : state.Unread) (reading : Reading) (skips : Bool) :
    Unread { state with reading := reading, skipsNewline := skips } := by
  obtain ⟨early, mode, before, lenient, skipped, rfl⟩ := unread
  exact ⟨early, mode, reading, lenient, skips, rfl⟩

theorem Headed.same (headed : state.Headed) (reading : Reading) (skips : Bool) :
    Headed { state with reading := reading, skipsNewline := skips } := by
  have stays : state.Lands (.head 2) state [] := ⟨headed.sits, _, .refl _, .refl _⟩
  exact headed.lands (stays.same ⟨rfl, rfl, rfl, rfl, rfl, rfl, rfl⟩ rfl rfl) rfl rfl (by simp)

theorem Leading.same {lead : List Item} (leading : state.Leading lead) (reading : Reading)
    (skips : Bool) : Leading lead { state with reading := reading, skipsNewline := skips } := by
  cases leading with
  | unread none unread => exact .unread none (unread.same reading skips)
  | headed some headed => exact .headed some (headed.same reading skips)

theorem Leading.settle_leads {lead : List Item} (leading : state.Leading lead)
    (fits : state.fits token = true) (leads : state.leads token = true) (more : Nat) :
    Leading (lead ++ token.items) (settle (4 + more) state token) := by
  cases leading with
  | unread none unread =>
      rcases unread.settle_leads fits leads more with ⟨nothing, still⟩ | ⟨written, headed⟩
      · exact .unread (by rw [none, nothing]; rfl) still
      · exact .headed (by rwa [none, List.nil_append]) headed
  | headed some headed =>
      obtain ⟨item, member, written⟩ := some
      rw [show 4 + more = 1 + (3 + more) by omega]
      exact .headed ⟨item, List.mem_append_left _ member, written⟩
        (headed.settle_leads fits leads _)

theorem Leading.settle_late {lead : List Item} (leading : state.Leading lead)
    (fits : state.fits token = true) (late : state.leads token = false) (more : Nat) :
    ∃ node, (settle (12 + more) state token).Holds node token.items := by
  cases leading with
  | unread _ unread => exact unread.settle_late fits late more
  | headed _ headed =>
      rw [show 12 + more = 9 + (3 + more) by omega]
      exact headed.settle_late fits late _

/-- A token of the leading part, and the first one behind it. -/
theorem Leading.behind {lead : List Item} (leading : state.Leading lead) {piece : Piece}
    (read : piece.token? = some token) (fits : (state.looking piece).fits token = true) :
    ((state.looking piece).leads token = true ∧
        Leading (lead ++ token.items) (state.behind piece)) ∨
      (state.looking piece).leads token = false ∧
        ∃ node, (state.behind piece).Holds node token.items := by
  have looks : (state.looking piece).Leading lead := leading.same piece.reading false
  rw [State.behind, read]
  dsimp only
  rcases exists_taken { state with reading := piece.reading } (ne_doctype_of_fits fits) with
    ⟨⟨content, rfl⟩, taken⟩ | ⟨shorter, more, same, taken⟩
  · rw [taken]
    refine .inl ⟨rfl, ?_⟩
    exact (List.append_nil lead).symm ▸ looks
  · have known : shorter.items = token.items ∧ (state.looking piece).fits shorter = true ∧
        (state.looking piece).leads shorter = (state.looking piece).leads token := by
      rcases same with rfl | ⟨content, blank, rfl, rfl⟩
      · exact ⟨rfl, fits, rfl⟩
      · exact ⟨rfl, fits_blank _ _, rfl⟩
    rw [taken, ← known.1, ← known.2.2]
    cases leads : (state.looking piece).leads shorter with
    | true =>
        refine .inl ⟨rfl, ?_⟩
        rw [show 16 + more = 4 + (12 + more) by omega]
        exact looks.settle_leads known.2.1 leads _
    | false =>
        refine .inr ⟨rfl, ?_⟩
        rw [show 16 + more = 12 + (4 + more) by omega]
        exact looks.settle_late known.2.1 leads _

theorem Leading.shown {lead : List Item} (leading : state.Leading lead) :
    lead = [] ∨ ∃ item ∈ lead, item.isWritten = true := by
  cases leading with
  | unread none => exact .inl none
  | headed some => exact .inr some

/-- What is put into the head, because it comes first. -/
def leadingOf (readings : List (State × Token)) : List Item :=
  contents (readings.takeWhile fun reading => reading.1.leads reading.2)

/-- What is read from the first late token on. -/
def laterOf (readings : List (State × Token)) : List Item :=
  contents (readings.dropWhile fun reading => reading.1.leads reading.2)

section

variable {readings : List (State × Token)}

theorem leadingOf_append_laterOf : leadingOf readings ++ laterOf readings = contents readings := by
  rw [leadingOf, laterOf, contents, contents, contents, ← List.flatMap_append,
    List.takeWhile_append_dropWhile]

theorem partsOf_cons_of_leads (leads : state.leads token = true) :
    leadingOf ((state, token) :: readings) = token.items ++ leadingOf readings ∧
      laterOf ((state, token) :: readings) = laterOf readings := by
  have front : ((state, token) :: readings).takeWhile (fun reading => reading.1.leads reading.2) =
      (state, token) :: readings.takeWhile fun reading => reading.1.leads reading.2 :=
    List.takeWhile_cons_of_pos leads
  have rest : ((state, token) :: readings).dropWhile (fun reading => reading.1.leads reading.2) =
      readings.dropWhile fun reading => reading.1.leads reading.2 :=
    List.dropWhile_cons_of_pos leads
  exact ⟨by rw [leadingOf, front]; rfl, by rw [laterOf, rest]; rfl⟩

theorem partsOf_cons_of_late (late : state.leads token = false) :
    leadingOf ((state, token) :: readings) = [] ∧
      laterOf ((state, token) :: readings) = token.items ++ contents readings := by
  have apart : ¬ state.leads token = true := Bool.eq_false_iff.mp late
  have front : ((state, token) :: readings).takeWhile (fun reading => reading.1.leads reading.2) =
      [] := List.takeWhile_cons_of_neg apart
  have rest : ((state, token) :: readings).dropWhile (fun reading => reading.1.leads reading.2) =
      (state, token) :: readings := List.dropWhile_cons_of_neg apart
  exact ⟨by rw [leadingOf, front]; rfl, by rw [laterOf, rest]; rfl⟩

end

/-- The body holds what is read from the first late token on. -/
theorem Leading.readWithin {lead : List Item} (leading : state.Leading lead) {bound : Nat}
    {text : List Char} (enough : text.length < bound)
    (fits : ∀ reading ∈ state.readings bound text, reading.1.fits reading.2 = true) :
    (∃ node, (state.readWithin bound text).Holds node (laterOf (state.readings bound text))) ∧
      (lead ++ leadingOf (state.readings bound text) = [] ∨
        ∃ item ∈ lead ++ leadingOf (state.readings bound text), item.isWritten = true) := by
  induction bound generalizing state lead text with
  | zero => omega
  | succ bound ih =>
      have shorter := piece_advances state text
      rw [readWithin_succ]
      rw [readings] at fits ⊢
      cases read : (state.piece text).token? with
      | none =>
          rw [read] at fits
          rw [Piece.Advances, read] at shorter
          have short := shorter.resolve_left (by rintro ⟨⟩)
          have behind : Leading lead (state.behind (state.piece text)) := by
            rw [State.behind, read]
            exact leading.same _ _
          rw [if_neg (by rintro ⟨⟩)]
          exact ih behind (by omega) fits
      | some token =>
          rw [read] at fits
          rw [Piece.Advances, read] at shorter
          obtain ⟨own, others⟩ := List.forall_mem_cons.mp fits
          dsimp only
          rcases leading.behind read own with ⟨leads, behind⟩ | ⟨late, node, holds⟩
          · have goes : token ≠ .finish := by
              rintro rfl
              cases leads
            have short := shorter.resolve_left fun same => goes (Option.some.inj same)
            rw [if_neg goes] at others
            rw [if_neg fun same => goes (Option.some.inj same), if_neg goes,
              (partsOf_cons_of_leads leads).1, (partsOf_cons_of_leads leads).2, ← List.append_assoc]
            exact ih behind (by omega) others
          · rw [(partsOf_cons_of_late late).1, (partsOf_cons_of_late late).2, List.append_nil]
            refine ⟨⟨node, ?_⟩, leading.shown⟩
            by_cases ends : token = .finish
            · rw [if_pos (congrArg some ends), if_pos ends, contents, List.flatMap_nil,
                List.append_nil]
              exact holds
            · rw [if_neg fun same => ends (Option.some.inj same), if_neg ends]
              rw [if_neg ends] at others
              exact holds.readWithin others

end State

/-! ## Documents -/

/-- The tokens of a document, each with the state in which it is looked at. -/
def documentReadings (html : String) : List (State × Token) :=
  State.start.readings ((documentText html).length + 2) (documentText html)

/-- Every token stands where content of its kind may stand in a body. -/
def IsFlowContent (html : String) : Prop :=
  ∀ reading ∈ documentReadings html, reading.1.fits reading.2 = true

instance (html : String) : Decidable (IsFlowContent html) :=
  inferInstanceAs (Decidable (∀ reading ∈ documentReadings html, reading.1.fits reading.2 = true))

/-- What the tags and the texts of a document show. -/
def documentContents (html : String) : List Item := State.contents (documentReadings html)

def leadingContents (html : String) : List Item := State.leadingOf (documentReadings html)

def laterContents (html : String) : List Item := State.laterOf (documentReadings html)

/-- The body of a document holds what is read behind the leading part. -/
theorem parseBody?_of_isFlowContent {html : String} (flow : IsFlowContent html) :
    (∃ body children, parseBody? html = some (.element body children) ∧
      Supplies (laterContents html) (Tree.itemsAll false children)) ∧
    (leadingContents html = [] ∨ ∃ item ∈ leadingContents html, item.isWritten = true) := by
  have unread : State.start.Unread := ⟨.inl rfl, .initial, .data, false, false, rfl⟩
  have leading : State.start.Leading [] := .unread rfl unread
  obtain ⟨⟨node, holds⟩, shown⟩ := leading.readWithin (by omega) flow
  rw [List.nil_append] at shown
  refine ⟨?_, shown⟩
  obtain ⟨sits, document, first, body, extra, named, span, supplies⟩ := holds
  obtain ⟨stop, ordered, last⟩ := sits.laid.order
  obtain ⟨inside, isBody⟩ := sits.laid.context.body_mem
  have root := sits.laid.context.rootNode_mem.1
  rw [State.element, Arena.element, named] at isBody
  simp only [Option.getD_some, Element.isHtml, Bool.and_eq_true, decide_eq_true_eq] at isBody
  have behind : rootNode ≤ node := (sits.laid.elements node inside).1
  obtain ⟨children, read, items⟩ := parseBody?_of_inOrder ordered document (by decide) behind
    (Arena.lt_size_of_element? named) (last _ root) (last _ inside) named isBody.2 first
  have paired := sits.laid.context.isVoid node inside
  rw [State.element, Arena.element, named] at paired
  have whole : Tree.items false (.element body children) =
      body.item :: Tree.itemsAll (false || body.isVoid) children := rfl
  rw [whole, show body.isVoid = false from paired] at items
  have same : Tree.itemsAll false children = extra := (List.cons.inj (items.trans span)).2
  exact ⟨body, children, read, same.symm ▸ supplies⟩

/-- All of a document is in its body exactly if nothing leads it. -/
theorem exists_body_of_isFlowContent {html : String} (flow : IsFlowContent html) :
    ∃ body children, parseBody? html = some (.element body children) ∧
      (laterContents html).Sublist (Tree.itemsAll false children) ∧
      ((documentContents html).Sublist (Tree.itemsAll false children) ↔
        leadingContents html = []) := by
  obtain ⟨⟨body, children, read, sublist, written⟩, shown⟩ := parseBody?_of_isFlowContent flow
  have parts : leadingContents html ++ laterContents html = documentContents html :=
    State.leadingOf_append_laterOf
  refine ⟨body, children, read, sublist, fun kept => ?_, fun none => ?_⟩
  · refine shown.resolve_right fun ⟨item, member, own⟩ => ?_
    -- What is written is never supplied, so the children hold no more of it than the later part.
    have counted := (kept.filter Item.isWritten).length_le
    rw [written, ← parts, List.filter_append, List.length_append] at counted
    have one := List.length_pos_of_mem (List.mem_filter.mpr ⟨member, own⟩)
    omega
  · rwa [← parts, none, List.nil_append]

end Bindery.Html
