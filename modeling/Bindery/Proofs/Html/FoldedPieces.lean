import Bindery.Proofs.Html.FoldedRuns

/-!
# Pieces of folded texts

However a text is read, the next piece of the folded text is that of the text, if its line feeds
stand where references count.
-/

set_option autoImplicit false

namespace Bindery.Html

/-! ## Markup -/

theorem Piece.not_mem_of_finish {reading : Reading} {text : List Char}
    (decodes : Piece.finish.decodesFeeds reading text = true) : '\n' ∉ text := by
  simpa [decodesFeeds, finish, taken] using decodes

/-- Comments and document types, which no reference counts in. -/
def Token.isRemark : Token → Bool
  | .comment _ => true
  | .doctype _ => true
  | _ => false

theorem isRemark_readComment (text : List Char) : (readComment text).1.isRemark = true := by
  unfold readComment
  split
  · rfl
  · rfl
  · split <;> rfl

/-- A remark that is read behind a front without line feeds. -/
theorem takesPlain_of_decodes {read : List Char → Token × List Char} (front : List Char)
    {text : List Char} {reading : Reading} (remark : (read text).1.isRemark = true)
    (decodes : (Piece.of .data (read text)).decodesFeeds reading (front ++ text) = true) :
    Folds.TakesPlain read text := by
  intro taken split member
  have absent : '\n' ∉ (Piece.of .data (read text)).taken (front ++ text) := by
    unfold Piece.decodesFeeds at decodes
    cases token : (read text).1 with
    | comment content => simpa [Piece.of, token] using decodes
    | doctype declaration => simpa [Piece.of, token] using decodes
    | _ =>
        rw [token] at remark
        cases remark
  have whole : front ++ text = front ++ taken ++ (Piece.of .data (read text)).rest := by
    rw [List.append_assoc]
    exact congrArg (front ++ ·) split
  rw [whole, Piece.taken_append, List.mem_append, not_or] at absent
  exact absent.2 member

/-- What a tag is read as; a tag that is cut off ends the document. -/
def tagPiece (wrap : Tag → Token) : Option (Tag × List Char) → Piece
  | some (tag, rest) => ⟨some (wrap tag), .data, rest⟩
  | none => .finish

theorem readEndTag_eq (text : List Char) :
    readEndTag text = tagPiece .endTag (readNamedTag (text.drop 1)) := by
  rw [readEndTag]
  cases readNamedTag (text.drop 1) <;> rfl

section

variable (sections : Bool) {c : Char} (rest : List Char)

theorem readMarkup_of_other (declaration : c ≠ '!') (instruction : c ≠ '?') (slash : c ≠ '/') :
    readMarkup sections (c :: rest) =
      if c.isAlpha then tagPiece .startTag (readNamedTag (c :: rest))
      else ⟨some (.text "<"), .data, c :: rest⟩ := by
  rw [readMarkup]
  · cases readNamedTag (c :: rest) <;> rfl
  · exact declaration
  · exact instruction
  · exact fun same _ => slash same
  · exact fun _ same _ => slash same
  · exact fun _ _ same _ => slash same

theorem readMarkup_slash_of_other (other : c ≠ '>') :
    readMarkup sections ('/' :: c :: rest) =
      if c.isAlpha then tagPiece .endTag (readNamedTag (c :: rest))
      else .of .data (readStrayComment (c :: rest)) := by
  rw [readMarkup]
  · cases readNamedTag (c :: rest) <;> rfl
  · exact other

end

namespace Folds

variable {text folded : List Char} (folds : Folds text folded)

include folds

theorem readDeclaration (sections : Bool) (whole : List Char)
    (decodes : (Html.readDeclaration sections text).decodesFeeds .data
      ('<' :: '!' :: text) = true) :
    PieceFolds .data whole (Html.readDeclaration sections text)
      (Html.readDeclaration sections folded) := by
  have opened := @dropStart? _ _ folds "--".toList (by decide)
  have keyword := @dropKeyword? _ _ "doctype" folds (by decide)
  have marked := @dropStart? _ _ folds "[CDATA[".toList (by decide)
  have stray : (Piece.of .data (Html.readStrayComment text)).decodesFeeds .data
      (['<', '!'] ++ text) = true → PieceFolds .data whole (.of .data (Html.readStrayComment text))
        (.of .data (Html.readStrayComment folded)) := fun decodes =>
    .of_sameRead (folds.readStrayComment (takesPlain_of_decodes ['<', '!'] rfl decodes))
  unfold Html.readDeclaration at decodes ⊢
  generalize Text.dropStart? "--".toList text = one at opened decodes ⊢
  generalize Text.dropStart? "--".toList folded = two at opened ⊢
  cases opened with
  | some cut =>
      obtain ⟨taken, rfl, rfl, behind⟩ := cut
      exact .of_sameRead (behind.readComment
        (takesPlain_of_decodes ('<' :: '!' :: taken) (isRemark_readComment _) decodes))
  | none =>
      generalize Html.dropKeyword? "doctype" text = one at keyword decodes ⊢
      generalize Html.dropKeyword? "doctype" folded = two at keyword ⊢
      cases keyword with
      | some cut =>
          obtain ⟨taken, rfl, rfl, behind⟩ := cut
          exact .of_sameRead (behind.readDoctype
            (takesPlain_of_decodes ('<' :: '!' :: taken) rfl decodes))
      | none =>
          generalize Text.dropStart? "[CDATA[".toList text = one at marked decodes ⊢
          generalize Text.dropStart? "[CDATA[".toList folded = two at marked ⊢
          cases marked with
          | some cut =>
              dsimp only at decodes ⊢
              split
              · exact .same cut.folds
              · next none =>
                  rw [if_neg none] at decodes
                  exact stray decodes
          | none => exact stray decodes

theorem tagPiece {wrap : Tag → Token} {reading : Reading} {whole : List Char}
    (feed : '\n' ∈ whole)
    (quoted : ∀ tag rest, Piece.decodesFeeds ⟨some (wrap tag), .data, rest⟩ reading whole = true →
      feedsQuoted .beforeName (behindName text) = true)
    (decodes : (Html.tagPiece wrap (Html.readNamedTag text)).decodesFeeds reading whole = true) :
    PieceFolds reading whole (Html.tagPiece wrap (Html.readNamedTag text))
      (Html.tagPiece wrap (Html.readNamedTag folded)) := by
  cases read : Html.readNamedTag text with
  | none =>
      rw [read] at decodes
      exact absurd feed (Piece.not_mem_of_finish decodes)
  | some found =>
      obtain ⟨tag, rest⟩ := found
      rw [read] at decodes
      have same := folds.readNamedTag (quoted tag rest decodes)
      rw [read] at same
      generalize Html.readNamedTag folded = other at same
      obtain ⟨rfl, behind⟩ := same
      exact .same behind

theorem readMarkup (sections : Bool) (feed : '\n' ∈ text)
    (decodes : (Html.readMarkup sections text).decodesFeeds .data ('<' :: text) = true) :
    PieceFolds .data ('<' :: text) (Html.readMarkup sections text)
      (Html.readMarkup sections folded) := by
  have inside : '\n' ∈ '<' :: text := List.mem_cons_of_mem _ feed
  cases folds with
  | nil => exact .refl _ _ _
  | feed rest => exact .same (.feed rest)
  | @cons c text folded rest =>
      by_cases declaration : c = '!'
      · subst declaration
        exact rest.readDeclaration sections _ decodes
      by_cases instruction : c = '?'
      · subst instruction
        exact .of_sameRead ((Folds.cons '?' rest).readStrayComment
          (takesPlain_of_decodes ['<'] rfl decodes))
      by_cases slash : c = '/'
      · subst slash
        cases rest with
        | nil => exact .refl _ _ _
        | @feed text folded rest =>
            exact .of_sameRead ((Folds.feed rest).readStrayComment
              (takesPlain_of_decodes ['<', '/'] rfl decodes))
        | @cons d text folded rest =>
            by_cases closing : d = '>'
            · subst closing
              exact .same rest
            rw [readMarkup_slash_of_other sections _ closing] at decodes ⊢
            rw [readMarkup_slash_of_other sections _ closing]
            split
            · next letter =>
                rw [if_pos letter] at decodes
                exact (Folds.cons d rest).tagPiece inside (fun _ _ quoted => quoted) decodes
            · next other =>
                rw [if_neg other] at decodes
                exact .of_sameRead ((Folds.cons d rest).readStrayComment
                  (takesPlain_of_decodes ['<', '/'] rfl decodes))
      rw [readMarkup_of_other sections _ declaration instruction slash] at decodes ⊢
      rw [readMarkup_of_other sections _ declaration instruction slash]
      split
      · next letter =>
          rw [if_pos letter] at decodes
          exact (Folds.cons c rest).tagPiece inside (fun _ _ quoted => quoted) decodes
      · exact .same (.cons c rest)

end Folds

/-- Where a run of text ends that references count in. -/
def stopsText (c : Char) : Bool := c == '<' || c == '&' || c == '\x00'

theorem readData_run (sections : Bool) {c : Char} (rest : List Char) (run : stopsText c = false) :
    readData sections (c :: rest) = readRun .data stopsText c rest := by
  simp only [stopsText, Bool.or_eq_false_iff, beq_eq_false_iff_ne] at run
  obtain ⟨⟨opening, sign⟩, zero⟩ := run
  rw [readData]
  · rfl
  · exact opening
  · exact sign
  · exact zero

theorem readEscapable_run (name : String) {c : Char} (rest : List Char)
    (run : stopsText c = false) :
    readEscapable name (c :: rest) = readRun (.escapable name) stopsText c rest := by
  simp only [stopsText, Bool.or_eq_false_iff, beq_eq_false_iff_ne] at run
  obtain ⟨⟨opening, sign⟩, zero⟩ := run
  rw [readEscapable]
  · rfl
  · exact opening
  · exact sign
  · exact zero

/-! ## The end of a text -/

theorem apart_of_letters {name : String}
    (letters : ∀ c ∈ name.toList, endsTagName c = false ∧ c ≠ '&') :
    '\n' ∉ ("/" ++ name).toList ∧ '&' ∉ ("/" ++ name).toList := by
  rw [String.toList_append, List.mem_append, List.mem_append, not_or, not_or]
  exact ⟨⟨by decide, fun member => absurd (letters _ member).1 (by decide)⟩, by decide,
    fun member => (letters _ member).2 rfl⟩

/-- A line feed behind the name of an end tag. -/
theorem feedsQuoted_lineFeed {name : String} {taken : List Char} (rest : List Char)
    (same : taken.map Char.toLower = ("/" ++ name).toList)
    (letters : ∀ c ∈ name.toList, endsTagName c = false) :
    feedsQuoted .beforeName (behindName ((taken ++ '\n' :: rest).drop 1)) = false := by
  have caseless : ∀ c, endsTagName c = true → c.toLower = c := by
    intro c ends
    simp only [endsTagName, isTagBlank, Bool.or_eq_true, beq_iff_eq] at ends
    rcases ends with (((((rfl | rfl) | rfl) | rfl) | rfl) | rfl) <;> rfl
  rw [String.toList_append] at same
  cases taken with
  | nil => cases same
  | cons slash taken =>
      have named : taken.map Char.toLower = name.toList := (List.cons.inj same).2
      have plain : ∀ c ∈ taken, endsTagName c = false := by
        intro c member
        rw [Bool.eq_false_iff]
        intro ends
        have inside := List.mem_map_of_mem (f := Char.toLower) member
        rw [caseless c ends, named] at inside
        rw [letters c inside] at ends
        cases ends
      have ends : ∀ c ∈ ('\n' :: rest).head?, endsTagName c = true := by
        rintro c ⟨⟩
        rfl
      rw [List.cons_append, List.drop_one, List.tail_cons, behindName_append plain ends]
      rfl

namespace Folds

variable {text folded : List Char} (folds : Folds text folded)

include folds

/-- A known end tag is found behind the opening sign of both texts. -/
theorem readEndTag {name : String}
    (letters : ∀ c ∈ name.toList, endsTagName c = false ∧ c ≠ '&') {reading : Reading}
    (feed : '\n' ∈ text) (starts : Html.startsWithName ("/" ++ name) text = true)
    (decodes : (Html.readEndTag text).decodesFeeds reading ('<' :: text) = true) :
    Html.startsWithName ("/" ++ name) folded = true ∧
      PieceFolds reading ('<' :: text) (Html.readEndTag text) (Html.readEndTag folded) := by
  rw [readEndTag_eq] at decodes
  rw [readEndTag_eq, readEndTag_eq]
  have inside : '\n' ∈ '<' :: text := List.mem_cons_of_mem _ feed
  have apart := apart_of_letters letters
  have quoted : feedsQuoted .beforeName (behindName (text.drop 1)) = true := by
    cases read : Html.readNamedTag (text.drop 1) with
    | none =>
        rw [read] at decodes
        exact absurd inside (Piece.not_mem_of_finish decodes)
    | some found =>
        rw [read] at decodes
        exact decodes
  refine ⟨folds.startsWithName_folded apart starts fun taken rest split same => ?_, ?_⟩
  · have none := feedsQuoted_lineFeed rest same fun c member => (letters c member).1
    rw [← split, quoted] at none
    cases none
  · obtain ⟨taken, c, rest, rfl, same, -⟩ := startsWithName_iff.mp starts
    rw [String.toList_append] at same
    cases taken with
    | nil => cases same
    | cons slash taken =>
        have other : slash ≠ '\n' := by
          rintro rfl
          exact absurd (List.cons.inj same).1 (by decide)
        obtain ⟨folded, rfl, behind⟩ := folds.cons_inv other
        exact behind.tagPiece inside (fun _ _ quoted => quoted) decodes

/-- An opening sign in a text that only one end tag ends. -/
theorem readSign {name : String} (letters : ∀ c ∈ name.toList, endsTagName c = false ∧ c ≠ '&')
    {reading : Reading} (feed : '\n' ∈ text)
    (decodes : Piece.decodesFeeds
      (if Html.startsWithName ("/" ++ name) text then Html.readEndTag text
        else ⟨some (.text "<"), reading, text⟩) reading ('<' :: text) = true) :
    PieceFolds reading ('<' :: text)
      (if Html.startsWithName ("/" ++ name) text then Html.readEndTag text
        else ⟨some (.text "<"), reading, text⟩)
      (if Html.startsWithName ("/" ++ name) folded then Html.readEndTag folded
        else ⟨some (.text "<"), reading, folded⟩) := by
  by_cases starts : Html.startsWithName ("/" ++ name) text = true
  · rw [if_pos starts] at decodes ⊢
    obtain ⟨startsFolded, piece⟩ := folds.readEndTag letters feed starts decodes
    rw [if_pos startsFolded]
    exact piece
  · have apart := apart_of_letters letters
    rw [if_neg starts, if_neg fun folded => starts (folds.startsWithName_of_folded apart folded)]
    exact .same folds

theorem readData (sections : Bool) (feed : '\n' ∈ text)
    (decodes : (Html.readData sections text).decodesFeeds .data text = true) :
    PieceFolds .data text (Html.readData sections text) (Html.readData sections folded) := by
  have next : ∀ sections d rest, stopsText d = false → isTextBlank d = true →
      Reading.data.next sections (d :: rest) = Html.readRun .data stopsText d rest :=
    fun sections d rest run _ => readData_run sections rest run
  cases folds with
  | nil => cases feed
  | feed rest => exact rest.readRun_feed rfl next
  | @cons c text folded rest =>
      by_cases opening : c = '<'
      · subst opening
        exact rest.readMarkup sections (List.mem_of_ne_of_mem (by decide) feed) decodes
      by_cases sign : c = '&'
      · subst sign
        exact rest.readAmpersand .data _
      by_cases zero : c = '\x00'
      · subst zero
        exact .same rest
      have run : stopsText c = false := by simp [stopsText, opening, sign, zero]
      rw [readData_run sections _ run, readData_run sections _ run]
      exact rest.readRun rfl rfl next

theorem readEscapable {name : String}
    (letters : ∀ c ∈ name.toList, endsTagName c = false ∧ c ≠ '&') (feed : '\n' ∈ text)
    (decodes : (Html.readEscapable name text).decodesFeeds (.escapable name) text = true) :
    PieceFolds (.escapable name) text (Html.readEscapable name text)
      (Html.readEscapable name folded) := by
  have next : ∀ sections d rest, stopsText d = false → isTextBlank d = true →
      (Reading.escapable name).next sections (d :: rest) =
        Html.readRun (.escapable name) stopsText d rest :=
    fun _ d rest run _ => readEscapable_run name rest run
  cases folds with
  | nil => cases feed
  | feed rest => exact rest.readRun_feed rfl next
  | @cons c text folded rest =>
      by_cases opening : c = '<'
      · subst opening
        exact rest.readSign letters (List.mem_of_ne_of_mem (by decide) feed) decodes
      by_cases sign : c = '&'
      · subst sign
        exact rest.readAmpersand (.escapable name) _
      by_cases zero : c = '\x00'
      · subst zero
        exact .same rest
      have run : stopsText c = false := by simp [stopsText, opening, sign, zero]
      rw [readEscapable_run name _ run, readEscapable_run name _ run]
      exact rest.readRun rfl rfl next

end Folds

/-! ## Texts without references -/

def Token.isText : Token → Bool
  | .blank _ => true
  | .text _ => true
  | _ => false

theorem exists_text_of_cons (c : Char) (run : List Char) :
    ∃ token, textToken? (c :: run) = some token ∧ token.isText = true := by
  rw [textToken?]
  split
  · exact ⟨_, rfl, rfl⟩
  · exact ⟨_, rfl, rfl⟩

section

variable {reading : Reading} (verbatim : reading.decodes = false) {stops : Char → Bool}

include verbatim

theorem Piece.not_mem_of_text {piece : Piece} {front : List Char} {token : Token}
    (found : piece.token? = some token) (isText : token.isText = true)
    (decodes : piece.decodesFeeds reading (front ++ piece.rest) = true) :
    '\n' ∉ front ∧ '\n' ∉ piece.rest.takeWhile (· != '>') := by
  unfold Piece.decodesFeeds at decodes
  rw [found, Piece.taken_append, verbatim] at decodes
  cases token with
  | blank content => simpa using decodes
  | text content => simpa using decodes
  | _ => cases isText

theorem plain_of_decodes {c : Char} {text : List Char}
    (decodes : (readRun reading stops c text).decodesFeeds reading (c :: text) = true) :
    '\n' ∉ c :: text.takeWhile (goesOn stops c) ∧
      '\n' ∉ (text.dropWhile (goesOn stops c)).takeWhile (· != '>') := by
  have split := List.takeWhile_append_dropWhile (p := goesOn stops c) (l := text)
  obtain ⟨token, found, isText⟩ := exists_text_of_cons c (text.takeWhile (goesOn stops c))
  rw [readRun_eq] at decodes
  nth_rewrite 3 [← split] at decodes
  rw [← List.cons_append] at decodes
  exact Piece.not_mem_of_text verbatim found isText decodes

/-- A run in which references do not count. -/
theorem Folds.readVerbatim {text folded : List Char} (folds : Folds text folded) {c : Char}
    (decodes : (Html.readRun reading stops c text).decodesFeeds reading (c :: text) = true) :
    PieceFolds reading (c :: text) (Html.readRun reading stops c text)
      (Html.readRun reading stops c folded) := by
  obtain ⟨plain, later⟩ := plain_of_decodes verbatim decodes
  exact folds.readRun_plain plain later

end

theorem splitScript_append (skipped : Nat) (depth : ScriptDepth) (text : List Char) :
    (splitScript skipped depth text).1 ++ (splitScript skipped depth text).2 = text := by
  fun_induction splitScript skipped depth text with
  | case1 => rfl
  | case2 skipped depth c rest content after found ih =>
      rw [found] at ih
      exact congrArg (c :: ·) ih
  | case3 => rfl
  | case4 depth rest inside skipped next content after found jump ih =>
      rw [found] at ih
      exact congrArg ('<' :: ·) ih
  | case5 depth c rest other content after found ih =>
      rw [found] at ih
      exact congrArg (c :: ·) ih

theorem readScript_end {rest : List Char} (starts : startsWithName "/script" rest = true) :
    readScript ('<' :: rest) = readEndTag rest := by
  simp [readScript, splitScript, ScriptDepth.seesEnd, starts]

/-- A script without text begins with its end tag. -/
theorem exists_end {text : List Char} (some : text ≠ [])
    (split : (splitScript 0 .plain text).1 = []) :
    ∃ rest, text = '<' :: rest ∧ startsWithName "/script" rest = true := by
  cases text with
  | nil => exact absurd rfl some
  | cons c rest =>
      rw [splitScript] at split
      split at split
      · next opening =>
          subst opening
          split at split
          · next ends => exact ⟨rest, rfl, (Bool.and_eq_true _ _ ▸ ends).2⟩
          · cases split
      · cases split

namespace Folds

variable {text folded : List Char} (folds : Folds text folded)

include folds

theorem readRaw {name : String}
    (letters : ∀ c ∈ name.toList, endsTagName c = false ∧ c ≠ '&') (feed : '\n' ∈ text)
    (decodes : (Html.readRaw name text).decodesFeeds (.raw name) text = true) :
    PieceFolds (.raw name) text (Html.readRaw name text) (Html.readRaw name folded) := by
  cases folds with
  | nil => cases feed
  | feed rest => exact absurd List.mem_cons_self (plain_of_decodes rfl decodes).1
  | @cons c text folded rest =>
      by_cases opening : c = '<'
      · subst opening
        exact rest.readSign letters (List.mem_of_ne_of_mem (by decide) feed) decodes
      by_cases zero : c = '\x00'
      · subst zero
        exact .same rest
      have run : ∀ rest, Html.readRaw name (c :: rest) =
          Html.readRun (.raw name) (fun d => d == '<' || d == '\x00') c rest := by
        intro rest
        rw [Html.readRaw]
        · exact opening
        · exact zero
      rw [run] at decodes ⊢
      rw [run]
      exact rest.readVerbatim rfl decodes

theorem readSection (feed : '\n' ∈ text)
    (decodes : (Html.readSection text).decodesFeeds .section text = true) :
    PieceFolds .section text (Html.readSection text) (Html.readSection folded) := by
  cases folds with
  | nil => cases feed
  | feed rest => exact absurd List.mem_cons_self (plain_of_decodes rfl decodes).1
  | @cons c text folded rest =>
      by_cases closing : ∃ after, c :: text = ']' :: ']' :: '>' :: after
      · obtain ⟨after, same⟩ := closing
        obtain ⟨rfl, rfl⟩ := List.cons.inj same
        obtain ⟨others, rfl, behind⟩ := @front_inv _ [']', '>'] _ rest (by decide)
        exact .same behind
      by_cases zero : c = '\x00'
      · subst zero
        exact .same rest
      rw [not_exists] at closing
      have closingFolded : ∀ after, c :: folded ≠ ']' :: ']' :: '>' :: after := by
        intro after same
        obtain ⟨rfl, rfl⟩ := List.cons.inj same
        obtain ⟨others, rfl, -⟩ := @front_inv_folded _ [']', '>'] _ rest (by decide)
        exact closing others rfl
      have run : ∀ rest, (∀ after, c :: rest ≠ ']' :: ']' :: '>' :: after) →
          Html.readSection (c :: rest) =
            Html.readRun .section (fun d => d == ']' || d == '\x00') c rest := by
        intro rest open_
        rw [Html.readSection]
        · rintro after rfl rfl
          exact open_ after rfl
        · exact zero
      rw [run _ closing] at decodes ⊢
      rw [run _ closingFolded]
      exact rest.readVerbatim rfl decodes

theorem readScript (feed : '\n' ∈ text)
    (decodes : (Html.readScript text).decodesFeeds .script text = true) :
    PieceFolds .script text (Html.readScript text) (Html.readScript folded) := by
  have letters : ∀ c ∈ "script".toList, endsTagName c = false ∧ c ≠ '&' := by decide
  have whole := splitScript_append 0 .plain text
  cases split : Html.splitScript 0 .plain text with
  | mk content rest =>
  rw [split] at whole
  cases content with
  | nil =>
      obtain ⟨rest, rfl, starts⟩ := exists_end (List.ne_nil_of_mem feed) (by rw [split])
      obtain ⟨folded, rfl, behind⟩ := folds.cons_inv (by decide)
      rw [readScript_end starts] at decodes ⊢
      obtain ⟨startsFolded, piece⟩ := behind.readEndTag letters
        (List.mem_of_ne_of_mem (by decide) feed) starts decodes
      rw [readScript_end startsFolded]
      exact piece
  | cons c content =>
      have read : ∀ {text rest}, Html.splitScript 0 .plain text = (c :: content, rest) →
          Html.readScript text =
            ⟨some (.text (String.ofList ((c :: content).map withoutNull))), .script, rest⟩ := by
        intro text rest split
        rw [Html.readScript, split]
      rw [read split] at decodes ⊢
      rw [← whole] at decodes
      obtain ⟨plain, later⟩ := Piece.not_mem_of_text rfl rfl rfl decodes
      obtain ⟨after, splitFolded, cut⟩ := folds.splitScript split plain later
      rw [read splitFolded]
      exact .same cut.folds

theorem next {reading : Reading} (named : reading.isNamed = true) (sections : Bool)
    (decodes : (reading.next sections text).decodesFeeds reading text = true) :
    PieceFolds reading text (reading.next sections text) (reading.next sections folded) := by
  by_cases feed : '\n' ∈ text
  · have letters : ∀ {name : String}, (name.toList.all fun c => !endsTagName c && c != '&') = true →
        ∀ c ∈ name.toList, endsTagName c = false ∧ c ≠ '&' := by simp
    cases reading with
    | data => exact folds.readData sections feed decodes
    | escapable name => exact folds.readEscapable (letters named) feed decodes
    | raw name => exact folds.readRaw (letters named) feed decodes
    | script => exact folds.readScript feed decodes
    | «section» => exact folds.readSection feed decodes
    | plain =>
        cases text with
        | nil => cases feed
        | cons c text =>
            rw [← List.append_nil (c :: text)] at decodes
            exact absurd feed (Piece.not_mem_of_text rfl rfl rfl decodes).1
  · rw [folds.eq_of_not_mem feed]
    exact .refl _ _ _

end Folds

end Bindery.Html
