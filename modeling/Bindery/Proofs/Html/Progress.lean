import Bindery.Html.Construction.Document
import Bindery.Proofs.Html.FoldedPieces

/-!
# Reading comes to an end

Each piece takes at least one character, or the document ends with it. So the number that bounds
the reading of a document does not matter if it is large enough.
-/

set_option autoImplicit false

namespace Bindery.Html

/-! ## References -/

theorem ne_nil_of_mem_entitiesAt {text : List Char} {entity : List Char × List Char}
    (member : entity ∈ entitiesAt text) : entity.1 ≠ [] := by
  obtain ⟨group, listed, among⟩ := exists_group_of_mem_entitiesAt member
  obtain ⟨⟨letters, source⟩, -, rfl⟩ := List.mem_map.mp listed
  have word := mem_words_of_mem_pairEntities among
  simpa using (List.mem_filter.mp word).2

theorem longestName_shorter {text : List Char} {found : Found}
    (longest : longestName text = some found) : found.2.2.2.length < text.length := by
  rw [longestName_eq] at longest
  -- The best name so far leaves less than the text, whatever names are still to come.
  suffices ∀ (names : List (List Char × List Char)) (best : Option Found),
      (∀ entity ∈ names, entity.1 ≠ []) → (∀ found ∈ best, found.2.2.2.length < text.length) →
        ∀ found ∈ names.foldl (longer text) best, found.2.2.2.length < text.length from
    this _ none (fun _ member => ne_nil_of_mem_entitiesAt member) nofun found longest
  intro names
  induction names with
  | nil => exact fun best _ shorter => shorter
  | cons entity names ih =>
      intro best named shorter
      obtain ⟨first, others⟩ := List.forall_mem_cons.mp named
      refine ih _ others ?_
      unfold longer
      cases dropped : Text.dropStart? entity.1 text with
      | none => exact shorter
      | some rest =>
          have less : rest.length < text.length := by
            rw [Text.dropStart?_eq_some_iff.mp dropped, List.length_append]
            have := List.length_pos_of_ne_nil first
            omega
          dsimp only
          split
          · rintro found ⟨⟩
            exact less
          · split
            · rintro found ⟨⟩
              exact less
            · exact shorter

theorem skipSemicolon_length_le (text : List Char) :
    (skipSemicolon text).length ≤ text.length := by
  unfold skipSemicolon
  split <;> simp

theorem readNumeral_shorter {base : Nat} {digitOf : Char → Option Nat} {text : List Char}
    {read : List Char × List Char} (found : readNumeral base digitOf text = some read) :
    read.2.length < text.length := by
  unfold readNumeral at found
  dsimp only at found
  split at found
  · cases found
  · next some =>
      cases found
      have taken : 0 < (text.takeWhile fun c => (digitOf c).isSome).length := by
        rw [List.length_pos_iff]
        simpa using some
      have left := List.takeWhile_prefix (l := text) fun c => (digitOf c).isSome
      have short := left.length_le
      have behind := skipSemicolon_length_le
        (text.drop (text.takeWhile fun c => (digitOf c).isSome).length)
      rw [List.length_drop] at behind
      dsimp only
      omega

theorem readReference_shorter {inValue : Bool} {text : List Char} {read : List Char × List Char}
    (found : readReference inValue text = some read) : read.2.length < text.length := by
  unfold readReference at found
  split at found
  · exact Nat.lt_succ_of_lt (Nat.lt_succ_of_lt (readNumeral_shorter found))
  · exact Nat.lt_succ_of_lt (Nat.lt_succ_of_lt (readNumeral_shorter found))
  · exact Nat.lt_succ_of_lt (readNumeral_shorter found)
  · cases found
  · split at found
    · split at found
      · cases found
      · next longest =>
          split at found
          · cases found
          · cases found
            exact longestName_shorter longest
    · cases found

/-! ## Pieces -/

theorem readTag_shorter {name : String} {place : TagPlace} {draft : TagDraft} {text : List Char}
    {read : Tag × List Char} (found : readTag name place draft text = some read) :
    read.2.length < text.length := by
  induction text generalizing place draft with
  | nil => cases found
  | cons c text ih =>
      rw [readTag] at found
      split at found
      · cases found
        exact Nat.lt_succ_self _
      · exact Nat.lt_succ_of_lt (ih found)

theorem readNamedTag_shorter {text : List Char} {read : Tag × List Char}
    (found : readNamedTag text = some read) : read.2.length < text.length := by
  have behind := readTag_shorter found
  rw [List.length_drop] at behind
  omega

theorem readComment_length_le (text : List Char) :
    (readComment text).2.length ≤ text.length := by
  unfold readComment
  split
  · exact Nat.le_succ _
  · exact Nat.le_trans (Nat.le_succ _) (Nat.le_succ _)
  · split
    · next split =>
        obtain ⟨ending, rfl⟩ := exists_splitComment split
        simp only [List.length_append]
        omega
    · exact Nat.zero_le _

theorem readStrayComment_length_le (text : List Char) :
    (readStrayComment text).2.length ≤ text.length := by
  rw [readStrayComment, List.length_drop]
  omega

theorem readDoctype_length_le (text : List Char) :
    (readDoctype text).2.length ≤ text.length := by
  have rest : (readDoctype text).2 =
      text.drop ((text.takeWhile (· != '>')).length + 1) := rfl
  rw [rest, List.length_drop]
  omega

/-- The piece takes something, or the document ends with it. -/
def Piece.Advances (piece : Piece) (text : List Char) : Prop :=
  piece.token? = some .finish ∨ piece.rest.length < text.length

namespace Piece.Advances

variable {text : List Char} {c : Char}

theorem finish (text : List Char) : Piece.finish.Advances text := .inl rfl

theorem cons {piece : Piece} (short : piece.rest.length ≤ text.length) :
    piece.Advances (c :: text) := .inr (Nat.lt_succ_of_le short)

theorem behind {piece : Piece} (advances : piece.Advances text) : piece.Advances (c :: text) :=
  advances.imp_right Nat.lt_succ_of_lt

theorem tagPiece (wrap : Tag → Token) (text : List Char) :
    (Html.tagPiece wrap (readNamedTag text)).Advances text := by
  cases found : readNamedTag text with
  | none => exact finish text
  | some read => exact .inr (readNamedTag_shorter found)

theorem readEndTag (text : List Char) : (Html.readEndTag text).Advances ('<' :: text) := by
  rw [readEndTag_eq]
  refine (tagPiece .endTag (text.drop 1)).imp_right fun short => ?_
  rw [List.length_drop] at short
  rw [List.length_cons]
  omega

theorem readRun (reading : Reading) (stops : Char → Bool) (c : Char) (text : List Char) :
    (Html.readRun reading stops c text).Advances (c :: text) := by
  refine cons ?_
  rw [readRun_eq]
  exact List.length_dropWhile_le _ text

theorem readAmpersand (reading : Reading) (text : List Char) :
    (Html.readAmpersand reading text).Advances ('&' :: text) := by
  unfold Html.readAmpersand
  split
  · next found =>
      have short := readReference_shorter found
      split
      · exact .inr (Nat.succ_lt_succ short)
      · exact .inr (Nat.lt_succ_of_lt short)
  · exact cons (Nat.le_refl _)

theorem readDeclaration (sections : Bool) (text : List Char) :
    (Html.readDeclaration sections text).Advances ('!' :: text) := by
  have stray : (Piece.of .data (readStrayComment text)).Advances ('!' :: text) :=
    cons (readStrayComment_length_le text)
  unfold Html.readDeclaration
  split
  · next rest opened =>
      have behind := readComment_length_le rest
      rw [Text.dropStart?_eq_some_iff.mp opened]
      refine cons ?_
      rw [List.length_append]
      exact Nat.le_trans behind (Nat.le_add_left _ _)
  · split
    · next rest keyword =>
        obtain ⟨taken, rfl, -⟩ := dropKeyword?_eq_some_iff.mp keyword
        refine cons ?_
        rw [List.length_append]
        exact Nat.le_trans (readDoctype_length_le rest) (Nat.le_add_left _ _)
    · split
      · next rest marked =>
          split
          · rw [Text.dropStart?_eq_some_iff.mp marked]
            refine cons ?_
            rw [List.length_append]
            exact Nat.le_add_left _ _
          · exact stray
      · exact stray

theorem readMarkup (sections : Bool) (text : List Char) :
    (Html.readMarkup sections text).Advances ('<' :: text) := by
  cases text with
  | nil => exact cons (Nat.le_refl _)
  | cons c text =>
      by_cases declaration : c = '!'
      · subst declaration
        exact (readDeclaration sections text).behind
      by_cases instruction : c = '?'
      · subst instruction
        exact cons (readStrayComment_length_le _)
      by_cases slash : c = '/'
      · subst slash
        cases text with
        | nil => exact cons (Nat.zero_le _)
        | cons d text =>
            by_cases closing : d = '>'
            · subst closing
              exact .inr (by simp [Html.readMarkup]; omega)
            rw [readMarkup_slash_of_other sections _ closing]
            split
            · exact (tagPiece .endTag (d :: text)).behind.behind
            · refine behind (cons (readStrayComment_length_le _))
      rw [readMarkup_of_other sections _ declaration instruction slash]
      split
      · exact (tagPiece .startTag (c :: text)).behind
      · exact cons (Nat.le_refl _)

theorem readData (sections : Bool) (text : List Char) :
    (Html.readData sections text).Advances text := by
  unfold Html.readData
  split
  · exact finish []
  · exact readMarkup sections _
  · exact readAmpersand .data _
  · exact cons (Nat.le_refl _)
  · exact readRun .data _ _ _

theorem readSign (reading : Reading) (name : String) (text : List Char) :
    Piece.Advances (if startsWithName name text then Html.readEndTag text
      else ⟨some (.text "<"), reading, text⟩) ('<' :: text) := by
  split
  · exact readEndTag text
  · exact cons (Nat.le_refl _)

theorem readEscapable (name : String) (text : List Char) :
    (Html.readEscapable name text).Advances text := by
  unfold Html.readEscapable
  split
  · exact finish []
  · exact readSign _ _ _
  · exact readAmpersand (.escapable name) _
  · exact cons (Nat.le_refl _)
  · exact readRun (.escapable name) _ _ _

theorem readRaw (name : String) (text : List Char) : (Html.readRaw name text).Advances text := by
  unfold Html.readRaw
  split
  · exact finish []
  · exact readSign _ _ _
  · exact cons (Nat.le_refl _)
  · exact readRun (.raw name) _ _ _

theorem readScript (text : List Char) : (Html.readScript text).Advances text := by
  have whole := splitScript_append 0 .plain text
  unfold Html.readScript
  split
  · exact finish text
  · next c rest split =>
      have some : text ≠ [] := by
        rintro rfl
        cases split
      obtain ⟨others, rfl, -⟩ := exists_end some (by rw [split])
      rw [split] at whole
      cases whole
      exact readEndTag _
  · next content rest some others split =>
      rw [split] at whole
      have long : 0 < content.length := by
        rw [List.length_pos_iff]
        rintro rfl
        cases rest with
        | nil => exact some rfl rfl
        | cons c rest => exact others c rest rfl rfl
      refine .inr ?_
      rw [← whole, List.length_append]
      dsimp only
      omega

theorem readSection (text : List Char) : (Html.readSection text).Advances text := by
  unfold Html.readSection
  split
  · exact finish []
  · exact cons (Nat.le_trans (Nat.le_succ _) (Nat.le_succ _))
  · exact cons (Nat.le_refl _)
  · exact readRun .section _ _ _

theorem readPlain (text : List Char) : (Html.readPlain text).Advances text := by
  unfold Html.readPlain
  split
  · exact finish []
  · next some =>
      exact .inr (List.length_pos_of_ne_nil some)

theorem next (reading : Reading) (sections : Bool) (text : List Char) :
    (reading.next sections text).Advances text := by
  cases reading with
  | data => exact readData sections text
  | escapable name => exact readEscapable name text
  | raw name => exact readRaw name text
  | script => exact readScript text
  | «section» => exact readSection text
  | plain => exact readPlain text

end Piece.Advances

/-! ## Documents -/

namespace State

/-- The piece that is read next. -/
def piece (state : State) (text : List Char) : Piece :=
  state.reading.next state.allowsSections text

/-- The state behind a piece. -/
def behind (state : State) (piece : Piece) : State :=
  let state := { state with reading := piece.reading }
  match piece.token? with
  | none => { state with skipsNewline := false }
  | some token => state.take token

/-- Whether line feeds stand only where references count; the number bounds the characters. -/
def decodesFeedsWithin : Nat → State → List Char → Bool
  | 0, _, _ => true
  | bound + 1, state, text =>
      let piece := state.piece text
      piece.decodesFeeds state.reading text &&
        (piece.token? == some .finish ||
          decodesFeedsWithin bound (state.behind piece) piece.rest)

/-- The state behind a text. -/
def readAll (state : State) (text : List Char) : State := state.readWithin (text.length + 1) text

def decodesFeeds (state : State) (text : List Char) : Bool :=
  state.decodesFeedsWithin (text.length + 1) text

variable {state : State} {text : List Char}

theorem readWithin_succ (bound : Nat) (state : State) (text : List Char) :
    state.readWithin (bound + 1) text =
      if (state.piece text).token? = some .finish then state.behind (state.piece text)
      else (state.behind (state.piece text)).readWithin bound (state.piece text).rest := by
  rw [readWithin, piece]
  unfold behind
  dsimp only
  cases (state.reading.next state.allowsSections text).token? with
  | none => rfl
  | some token => cases token <;> rfl

theorem piece_advances (state : State) (text : List Char) : (state.piece text).Advances text :=
  .next _ _ _

/-- Two numbers that are both large enough bound the same reading. -/
theorem readWithin_eq {bound other : Nat} (enough : text.length < bound)
    (enoughOther : text.length < other) :
    state.readWithin bound text = state.readWithin other text := by
  induction bound generalizing other state text with
  | zero => omega
  | succ bound ih =>
      obtain ⟨other, rfl⟩ : ∃ less, other = less + 1 := ⟨other - 1, by omega⟩
      rw [readWithin_succ, readWithin_succ]
      rcases piece_advances state text with finish | short
      · rw [if_pos finish, if_pos finish]
      · rw [ih (by omega) (by omega : (state.piece text).rest.length < other)]

theorem decodesFeedsWithin_eq {bound other : Nat} (enough : text.length < bound)
    (enoughOther : text.length < other) :
    state.decodesFeedsWithin bound text = state.decodesFeedsWithin other text := by
  induction bound generalizing other state text with
  | zero => omega
  | succ bound ih =>
      obtain ⟨other, rfl⟩ : ∃ less, other = less + 1 := ⟨other - 1, by omega⟩
      rw [decodesFeedsWithin, decodesFeedsWithin]
      rcases piece_advances state text with finish | short
      · rw [finish]
        rfl
      · rw [ih (by omega) (by omega : (state.piece text).rest.length < other)]

theorem readAll_eq (state : State) (text : List Char) :
    state.readAll text =
      if (state.piece text).token? = some .finish then state.behind (state.piece text)
      else (state.behind (state.piece text)).readAll (state.piece text).rest := by
  rw [readAll, readWithin_succ]
  split
  · rfl
  · next goes =>
      have short := (piece_advances state text).resolve_left goes
      exact readWithin_eq short (Nat.lt_succ_self _)

theorem decodesFeeds_eq (state : State) (text : List Char) :
    state.decodesFeeds text =
      ((state.piece text).decodesFeeds state.reading text &&
        ((state.piece text).token? == some .finish ||
          (state.behind (state.piece text)).decodesFeeds (state.piece text).rest)) := by
  rw [decodesFeeds, decodesFeedsWithin]
  rcases piece_advances state text with finish | short
  · rw [finish]
    rfl
  · rw [decodesFeeds, decodesFeedsWithin_eq short (Nat.lt_succ_self _)]

end State

end Bindery.Html
