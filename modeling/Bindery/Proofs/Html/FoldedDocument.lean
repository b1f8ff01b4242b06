import Bindery.Callout
import Bindery.Proofs.Html.TableText

/-!
# Documents on one line

A document whose line feeds are written as references is the same document, as long as each line
feed is read where references count. In a script, in another raw text and in a comment they do
not, and there the document changes.
-/

set_option autoImplicit false

namespace Bindery.Html

namespace State

variable {state : State} {text folded : List Char}

theorem readAll_blank {content : String} {rest : List Char}
    (read : state.piece text = ⟨some (.blank content), state.reading, rest⟩) :
    state.readAll text = (state.take (.blank content)).readAll rest := by
  rw [readAll_eq, read]
  exact if_neg nofun

theorem decodesFeeds_blank {content : String} {rest : List Char}
    (read : state.piece text = ⟨some (.blank content), state.reading, rest⟩)
    (counts : state.reading.decodes = true) :
    state.decodesFeeds text = (state.take (.blank content)).decodesFeeds rest := by
  have here : Piece.decodesFeeds ⟨some (.blank content), state.reading, rest⟩ state.reading text =
      true := by
    rw [Piece.decodesFeeds, counts, Bool.true_or]
  rw [decodesFeeds_eq, read, here, Bool.true_and]
  rfl

/-- What is read of a folded text is what is read of the text. Only a run of blanks can end early
in the folded text, in front of a reference, and then its other part comes next. -/
theorem readAll_of_folds (sound : state.Sound) (folds : Folds text folded)
    (decodes : state.decodesFeeds text = true) : state.readAll folded = state.readAll text := by
  induction length : text.length using Nat.strong_induction_on
    generalizing state text folded with
  | _ length ih =>
      subst length
      have both := decodes
      rw [decodesFeeds_eq, Bool.and_eq_true, Bool.or_eq_true, beq_iff_eq] at both
      obtain ⟨here, later⟩ := both
      have pieces : PieceFolds state.reading text (state.piece text) (state.piece folded) :=
        folds.next sound.reading state.allowsSections here
      generalize read : state.piece text = piece at pieces
      generalize readFolded : state.piece folded = other at pieces
      cases pieces with
      | @same token? next rest after folds =>
          have named : (state.piece text).reading.isNamed = true :=
            Reading.isNamed_next sound.reading _ _
          have advances := piece_advances state text
          rw [read] at later named advances
          rw [readAll_eq, readAll_eq state text, read, readFolded]
          split
          · rfl
          · next goes =>
              exact ih _ (advances.resolve_left goes) (sound.behind named) folds
                (later.resolve_left goes) rfl
      | @split front back rest after text_eq counts front_ne back_ne next_eq folds =>
          -- The folded text goes on with the rest of the run. That is one more run of blanks for the
          -- text too, read in the state behind the first part.
          have alike := take_blank_append sound front_ne back_ne
          have joined : (state.take (.blank (String.ofList (front ++ back)))).Sound := sound.take _
          have parted : (state.take (.blank (String.ofList front))).Sound := sound.take _
          have reading := reading_take_blank state front_ne
          have shorter : (back ++ rest).length < text.length := by
            rw [text_eq, @List.length_append _ front]
            exact Nat.lt_add_of_pos_left (List.length_pos_iff.mpr front_ne)
          rw [decodesFeeds_blank read counts] at decodes
          rw [readAll_blank read, readAll_blank readFolded]
          generalize state.take (.blank (String.ofList front)) = behind at *
          have second : behind.piece (back ++ rest) =
              ⟨some (.blank (String.ofList back)), behind.reading, rest⟩ := by
            rw [piece, reading]
            exact next_eq _
          have feeds : behind.decodesFeeds (back ++ rest) = true := by
            rw [decodesFeeds_blank second (by rwa [reading]), alike.decodesFeeds joined, decodes]
          rw [ih _ shorter parted folds feeds rfl, readAll_blank second, alike.readAll joined]

end State

/-- Whether each line feed of a document is read where references count: in text or in the quoted
value of an attribute. -/
def DecodesFeeds (html : String) : Prop := State.start.decodesFeeds (documentText html) = true

instance (html : String) : Decidable (DecodesFeeds html) := inferInstanceAs (Decidable (_ = true))

/-- A document on one line is the same document, node by node, if each of its line feeds is read
where references count. -/
theorem parseDocument_foldLines {html : String} (decodes : DecodesFeeds html) :
    parseDocument (String.ofList (Inset.foldLines html.toList)) = parseDocument html := by
  have read := State.readAll_of_folds State.sound_start (Folds.documentText_foldLines html) decodes
  have bounded : ∀ text : List Char,
      State.start.readWithin (text.length + 2) text = State.start.readAll text := fun text =>
    State.readWithin_eq (Nat.lt_succ_of_lt (Nat.lt_succ_self _)) (Nat.lt_succ_self _)
  unfold parseDocument
  dsimp only
  rw [bounded, bounded, read]

/-- A callout with line feeds in texts, in an attribute, in a table and at the start of a listing,
and with a script and a comment of one line. -/
def listingCallout : Node :=
  Callout.container "tip" [
    .element (.ofName "pre" []) [.text "\na\n  b"],
    .element (.ofName "table" [("title", "a\nb")]) [
      .text "\n\n",
      .element (.ofName "tbody" []) [
        .element (.ofName "tr" []) [.element (.ofName "td" []) [.text "x\n"]]]],
    .element (.ofName "script" []) [.text "f()"],
    .comment " n ",
    .text "\n"]

theorem parseDocument_foldLines_listing :
    DecodesFeeds listingCallout.outer ∧
      parseDocument (String.ofList (Inset.foldLines listingCallout.outer.toList)) =
        parseDocument listingCallout.outer :=
  have decodes : DecodesFeeds listingCallout.outer := by decide +kernel
  ⟨decodes, parseDocument_foldLines decodes⟩

def scriptCallout : Node :=
  Callout.container Callout.defaultClass [
    .text "x", .element (.ofName "script" []) [.text "a\nb"], .text "\n"]

/-- In a script the reference is five characters of the program. -/
theorem parseBody?_foldLines_script :
    parseBody? (String.ofList (Inset.foldLines scriptCallout.outer.toList)) ≠
      parseBody? scriptCallout.outer := by
  decide +kernel

end Bindery.Html
