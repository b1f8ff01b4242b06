import Bindery.Proofs.Html.BlankRuns
import Bindery.Proofs.Html.Progress

/-!
# Text that is kept in a table

Two states that differ only in how a run of blanks is parted in the text of a table read the same
document, since that text is inserted part by part.
-/

set_option autoImplicit false

namespace Bindery.Html

namespace State

variable {state other : State}

/-! ## Kept text is inserted -/

theorem SplitsBlank.all {parts others : List (Bool × String)} (splits : SplitsBlank parts others) :
    others.all (·.1) = parts.all (·.1) := by
  induction splits with
  | split one other before => rfl
  | cons part rest ih => rw [List.all_cons, List.all_cons, ih]

/-- The parts of kept text come one after the other, so a run of blanks may come in two. -/
theorem SplitsBlank.foldl {parts others : List (Bool × String)} (splits : SplitsBlank parts others)
    {insert : State → Bool × String → State}
    (keeps : ∀ {state : State} part, state.Sound → (insert state part).Sound)
    (joins : ∀ {state : State} one other, state.Sound →
      insert (insert state (true, one)) (true, other) = insert state (true, one ++ other))
    (sound : state.Sound) :
    others.reverse.foldl insert state = parts.reverse.foldl insert state := by
  induction splits with
  | split one other before =>
      simp only [List.reverse_cons, List.foldl_append, List.foldl_cons, List.foldl_nil]
      exact joins one other (sound.foldl keeps _)
  | cons part rest ih =>
      simp only [List.reverse_cons, List.foldl_append, List.foldl_cons, List.foldl_nil, ih]

theorem SamePending.insertPending (same : state.SamePending other) (sound : state.Sound) :
    other.insertPending = state.insertPending := by
  obtain ⟨-, parts, splits, rfl⟩ := same
  have emptied : ({ state with pending := [] } : State).Sound := sound
  unfold State.insertPending
  dsimp only
  rw [List.all_reverse, List.all_reverse, splits.all]
  split
  · exact splits.foldl (fun part sound => sound.insertText part.2)
      (fun one other sound => insertText_insertText sound one other) emptied
  · refine splits.foldl (fun part sound => sound.inBodyFostering _) ?_ emptied
    intro state one other sound
    exact fosterBlank_fosterBlank sound one other

/-! ## What does not touch the kept text -/

/-- A change that neither reads nor writes the kept text, and stays in the mode. -/
structure IgnoresPending (change : State → State) : Prop where
  mode : ∀ state, (change state).mode = state.mode
  pending : ∀ (state : State) parts,
    change { state with pending := parts } = { change state with pending := parts }

namespace IgnoresPending

theorem place (state : State) (parts : List (Bool × String)) :
    State.place { state with pending := parts } = state.place :=
  place_of_keeps (.refl _) rfl rfl

theorem insertText (content : String) : IgnoresPending (·.insertText content) where
  mode state := by rw [insertText_eq]
  pending state parts := by
    unfold State.insertText
    rw [place]
    cases state.place with
    | inside parent => rfl
    | beforeTable table fallback =>
        dsimp only
        split <;> rfl

theorem insertNode (add : Arena → Arena × Nat) :
    IgnoresPending fun state =>
      { state with arena := (add state.arena).1 }.insertNode state.place (add state.arena).2 where
  mode state := by rw [insertNode_eq]
  pending state parts := by
    rw [place]
    unfold State.insertNode
    cases state.place with
    | inside parent => rfl
    | beforeTable table fallback =>
        dsimp only
        split <;> rfl

theorem insertComment (content : String) : IgnoresPending (·.insertComment content) :=
  insertNode (·.add (.comment content))

theorem insertClosed (tag : Element) : IgnoresPending (·.insertClosed tag) :=
  insertNode (·.addElement tag)

theorem insertOpen (tag : Element) : IgnoresPending fun state => (state.insertOpen tag).1 where
  mode state := by rw [insertOpen_eq]
  pending state parts := by
    have opened : ∀ state : State, (state.insertOpen tag).1 =
        (state.insertClosed tag).push (state.arena.addElement tag).2 := fun _ => rfl
    rw [opened, opened, (insertClosed tag).pending]
    rfl

theorem insertForeign (tag : Tag) (space : Space) (respelled : Bool) :
    IgnoresPending (·.insertForeign tag space respelled) := by
  unfold State.insertForeign
  dsimp only
  split
  · exact insertClosed _
  · exact insertOpen _

end IgnoresPending

theorem SamePending.change (same : state.SamePending other) {change : State → State}
    (ignores : IgnoresPending change) : (change state).SamePending (change other) := by
  obtain ⟨mode, parts, splits, rfl⟩ := same
  refine ⟨(ignores.mode state).trans mode, parts, ?_, ignores.pending state parts⟩
  have kept : (change state).pending = state.pending := by
    rw [show change state = _ from ignores.pending state state.pending]
  rwa [kept]

end State

/-! ## Tokens -/

/-- The same steps, or steps that are done in states that keep the same text of a table. -/
inductive Step.Alike : Step → Step → Prop where
  | refl (step : Step) : Step.Alike step step
  | done {state other : State} (same : state.SamePending other) :
      Step.Alike (.done state) (.done other)

namespace State

variable {state other : State}

namespace SamePending

variable (same : state.SamePending other)

include same

theorem fields : ∃ parts, other = { state with pending := parts } := by
  obtain ⟨-, parts, -, rfl⟩ := same
  exact ⟨parts, rfl⟩

theorem mode_other : other.mode = .inTableText := by
  obtain ⟨parts, rfl⟩ := same.fields
  exact same.mode

theorem current : other.current = state.current := by
  obtain ⟨parts, rfl⟩ := same.fields
  rfl

theorem isForeign (token : Token) : other.isForeign token = state.isForeign token :=
  isForeign_of_current same.current token

theorem keep (part : Bool × String) :
    SamePending { state with pending := part :: state.pending }
      { other with pending := part :: other.pending } := by
  obtain ⟨mode, parts, splits, rfl⟩ := same
  exact ⟨mode, _, .cons part splits, rfl⟩

/-- What ends the text of a table is looked at with the text inserted. -/
theorem leave (sound : state.Sound) : other.insertPending.withMode other.returnMode =
    state.insertPending.withMode state.returnMode := by
  obtain ⟨parts, fields⟩ := same.fields
  rw [same.insertPending sound, fields]

theorem inTableText (sound : state.Sound) (token : Token) :
    (state.inTableText token).Alike (other.inTableText token) := by
  cases token with
  | null => exact .done same
  | blank content => exact .done (same.keep _)
  | text content => exact .done (same.keep _)
  | _ =>
      unfold State.inTableText
      rw [same.leave sound]
      exact .refl _

theorem stepIn (sound : state.Sound) (token : Token) :
    (state.stepIn token).Alike (other.stepIn token) := by
  rw [stepIn_inTableText same.mode, stepIn_inTableText same.mode_other]
  exact same.inTableText sound token

theorem opened : other.opened = state.opened := by
  obtain ⟨parts, rfl⟩ := same.fields
  rfl

theorem element (node : Nat) : other.element node = state.element node := by
  obtain ⟨parts, rfl⟩ := same.fields
  rfl

theorem foreignEnd (name : String) (first : Bool) (nodes : List Nat) :
    other.foreignEnd name first nodes = state.foreignEnd name first nodes := by
  induction nodes generalizing first with
  | nil => exact congrArg some same.opened
  | cons node rest ih =>
      cases rest with
      | nil => exact congrArg some same.opened
      | cons below rest =>
          rw [State.foreignEnd, ih, same.element]
          · rfl
          · nofun

theorem leaveForeign : state.leaveForeign.SamePending other.leaveForeign :=
  same.change ⟨fun _ => rfl, fun _ _ => rfl⟩

theorem inForeign (sound : state.Sound) (token : Token) :
    (state.inForeign token).Alike (other.inForeign token) := by
  have left := same.leaveForeign.stepIn (sound.popDownTo _) token
  have refused : state.refuseFrames.SamePending other.refuseFrames :=
    same.change ⟨fun _ => rfl, fun _ _ => rfl⟩
  cases token with
  | null => exact .done (same.change (.insertText _))
  | blank content => exact .done (same.change (.insertText _))
  | text content => exact .done (refused.change (.insertText _))
  | comment content => exact .done (same.change (.insertComment _))
  | finish => exact .done same
  | doctype declaration => exact .done same
  | startTag tag =>
      unfold State.inForeign
      dsimp only
      split
      · exact left
      · rw [same.current]
        exact .done (same.change (.insertForeign _ _ _))
  | endTag tag =>
      unfold State.inForeign
      dsimp only
      split
      · exact left
      · rw [same.foreignEnd, same.opened]
        split
        · next opened _ =>
            have closed : IgnoresPending fun state => { state with opened := opened } :=
              ⟨fun _ => rfl, fun _ _ => rfl⟩
            exact .done (same.change closed)
        · exact same.stepIn sound _

theorem step (sound : state.Sound) (token : Token) :
    (state.step token).Alike (other.step token) := by
  unfold State.step
  rw [same.isForeign]
  split
  · exact same.inForeign sound token
  · exact same.stepIn sound token

theorem settle (sound : state.Sound) (attempts : Nat) (token : Token) :
    (State.settle attempts state token).Alike (State.settle attempts other token) := by
  cases attempts with
  | zero => exact .inr same
  | succ attempts =>
      have stepped := same.step sound token
      rw [State.settle, State.settle]
      generalize state.step token = one at stepped
      generalize other.step token = two at stepped
      cases stepped with
      | refl => exact .inl rfl
      | done next => exact .inr next

theorem skipped : SamePending { state with skipsNewline := false }
    { other with skipsNewline := false } :=
  same.change (⟨fun _ => rfl, fun _ _ => rfl⟩ :
    IgnoresPending fun state => { state with skipsNewline := false })

theorem attempts_eq : other.attempts = state.attempts := by
  obtain ⟨parts, rfl⟩ := same.fields
  rfl

theorem settle_attempts (sound : state.Sound) (token : Token) :
    (State.settle state.attempts state token).Alike (State.settle other.attempts other token) := by
  rw [same.attempts_eq]
  exact same.settle sound _ token

theorem take (sound : state.Sound) (token : Token) :
    (state.take token).Alike (other.take token) := by
  have unskipped : ({ state with skipsNewline := false } : State).Sound := sound
  have skips : other.skipsNewline = state.skipsNewline := by
    obtain ⟨parts, rfl⟩ := same.fields
    rfl
  unfold State.take
  rw [skips]
  dsimp only
  split
  · rw [if_neg (by rw [same.mode]; decide), if_neg (by rw [same.mode_other]; decide)]
    exact .inr same.skipped
  · exact same.skipped.settle_attempts unskipped _
  · exact .inr same.skipped

/-- At the end of a document the kept text is inserted. -/
theorem take_finish (sound : state.Sound) : other.take .finish = state.take .finish := by
  have unskipped : ({ state with skipsNewline := false } : State).Sound := sound
  have taken : ∀ state : State, state.take .finish =
      State.settle (attempts { state with skipsNewline := false })
        { state with skipsNewline := false } .finish := by
    intro state
    unfold State.take
    cases state.skipsNewline <;> rfl
  have stepped : ∀ {state : State}, state.mode = .inTableText →
      state.step .finish = .again (state.insertPending.withMode state.returnMode) := by
    intro state mode
    have inside : state.isForeign .finish = false := by
      unfold State.isForeign
      dsimp only
      split <;> rfl
    rw [State.step, inside, if_neg Bool.false_ne_true, stepIn_inTableText mode]
    rfl
  -- The end leaves the text of a table at once, and from there both states are one.
  obtain ⟨more, enough⟩ : ∃ more, attempts { state with skipsNewline := false } = more + 1 :=
    ⟨_, (Nat.sub_add_cancel (by simp [State.attempts]; omega)).symm⟩
  rw [taken state, taken other, same.skipped.attempts_eq, enough, State.settle, State.settle,
    stepped same.skipped.mode, stepped same.skipped.mode_other, same.skipped.leave unskipped]

end SamePending

/-! ## Texts -/

theorem SamePending.withReading (same : state.SamePending other) (reading : Reading) :
    SamePending { state with reading := reading } { other with reading := reading } :=
  same.change (⟨fun _ => rfl, fun _ _ => rfl⟩ :
    IgnoresPending fun state => { state with reading := reading })

theorem SamePending.behind_alike (same : state.SamePending other) (sound : state.Sound)
    {piece : Piece} (named : piece.reading.isNamed = true) :
    (state.behind piece).Alike (other.behind piece) := by
  have reading := same.withReading piece.reading
  unfold behind
  dsimp only
  split
  · exact .inr reading.skipped
  · exact reading.take (sound.withReading named) _

theorem SamePending.behind_finish (same : state.SamePending other) (sound : state.Sound)
    {piece : Piece} (ends : piece.token? = some .finish)
    (named : piece.reading.isNamed = true) : other.behind piece = state.behind piece := by
  unfold State.behind
  rw [ends]
  exact (same.withReading piece.reading).take_finish (sound.withReading named)

theorem Sound.behind (sound : state.Sound) {piece : Piece}
    (named : piece.reading.isNamed = true) : (state.behind piece).Sound := by
  unfold State.behind
  dsimp only
  split
  · exact sound.withReading named
  · exact (sound.withReading named).take _

theorem SamePending.piece (same : state.SamePending other) (text : List Char) :
    other.piece text = state.piece text := by
  obtain ⟨parts, rfl⟩ := same.fields
  rfl

theorem SamePending.reading (same : state.SamePending other) : other.reading = state.reading := by
  obtain ⟨parts, rfl⟩ := same.fields
  rfl

/-- States that go on alike read the same document. -/
theorem Alike.readAll (alike : state.Alike other) (sound : state.Sound) (text : List Char) :
    other.readAll text = state.readAll text := by
  induction length : text.length using Nat.strong_induction_on generalizing state other text with
  | _ length ih =>
      subst length
      rcases alike with rfl | same
      · rfl
      have named : (state.piece text).reading.isNamed = true :=
        Reading.isNamed_next sound.reading _ _
      rw [readAll_eq, readAll_eq state, same.piece]
      split
      · next ends => exact same.behind_finish sound ends named
      · next goes =>
          have short := (piece_advances state text).resolve_left goes
          exact ih _ short (same.behind_alike sound named) (sound.behind named) _ rfl

theorem Alike.decodesFeeds (alike : state.Alike other) (sound : state.Sound) (text : List Char) :
    other.decodesFeeds text = state.decodesFeeds text := by
  induction length : text.length using Nat.strong_induction_on generalizing state other text with
  | _ length ih =>
      subst length
      rcases alike with rfl | same
      · rfl
      have named : (state.piece text).reading.isNamed = true :=
        Reading.isNamed_next sound.reading _ _
      rw [decodesFeeds_eq, decodesFeeds_eq state, same.piece, same.reading]
      rcases piece_advances state text with ends | short
      · rw [ends]
        rfl
      · rw [ih _ short (same.behind_alike sound named) (sound.behind named) _ rfl]

end State

end Bindery.Html
