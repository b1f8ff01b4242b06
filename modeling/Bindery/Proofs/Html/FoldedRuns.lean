import Bindery.Proofs.Html.FoldedMarkup

/-!
# Runs of folded texts

Read piece by piece, a folded text gives the pieces of the text, but for runs of blanks. Such a
run ends early in front of a reference to a line feed, and what is left of it is read next.
-/

set_option autoImplicit false

namespace Bindery.Html

/-- Whether references count in what is read. -/
def Reading.decodes : Reading → Bool
  | .data => true
  | .escapable _ => true
  | _ => false

/-- Whether the name that ends the reading is one letter after the other. -/
def Reading.isNamed : Reading → Bool
  | .escapable name => name.toList.all fun c => !endsTagName c && c != '&'
  | .raw name => name.toList.all fun c => !endsTagName c && c != '&'
  | _ => true

/-- What a piece takes off the front of a text. -/
def Piece.taken (piece : Piece) (text : List Char) : List Char :=
  text.take (text.length - piece.rest.length)

/-- Whether the line feeds that decide the piece stand where references count. In a text where
they do not count, what ends the text decides too, up to its closing sign. -/
def Piece.decodesFeeds (piece : Piece) (reading : Reading) (text : List Char) : Bool :=
  match piece.token? with
  | some (.startTag _) => feedsQuoted .beforeName (behindName (text.drop 1))
  | some (.endTag _) => feedsQuoted .beforeName (behindName (text.drop 2))
  | some (.blank _) | some (.text _) | some .null =>
      reading.decodes || '\n' ∉ piece.taken text ++ piece.rest.takeWhile (· != '>')
  | _ => '\n' ∉ piece.taken text

/-- The piece of a text and that of the folded one are the same token, or the folded text ends a
run of blanks early, and what is left of the run is a piece too. -/
inductive PieceFolds (reading : Reading) (text : List Char) : Piece → Piece → Prop where
  | same {token? : Option Token} {next : Reading} {rest after : List Char}
      (folds : Folds rest after) :
      PieceFolds reading text ⟨token?, next, rest⟩ ⟨token?, next, after⟩
  | split {front back rest after : List Char} (text_eq : text = front ++ (back ++ rest))
      (decodes : reading.decodes = true) (front_ne : front ≠ []) (back_ne : back ≠ [])
      (next_eq : ∀ sections, reading.next sections (back ++ rest) =
        ⟨some (.blank (String.ofList back)), reading, rest⟩)
      (folds : Folds (back ++ rest) after) :
      PieceFolds reading text ⟨some (.blank (String.ofList (front ++ back))), reading, rest⟩
        ⟨some (.blank (String.ofList front)), reading, after⟩

theorem PieceFolds.refl (reading : Reading) (text : List Char) (piece : Piece) :
    PieceFolds reading text piece piece := .same (.refl _)

theorem PieceFolds.of_sameRead {reading next : Reading} {text behind folded : List Char}
    {read other : Token × List Char} (same : Folds.SameRead behind folded read other) :
    PieceFolds reading text (.of next read) (.of next other) := by
  obtain ⟨token, rest⟩ := read
  obtain ⟨rfl, cut⟩ := same
  exact .same cut.folds

theorem Piece.taken_append (front : List Char) (piece : Piece) :
    piece.taken (front ++ piece.rest) = front := by
  simp [taken]

namespace Folds

variable {text folded : List Char}

/-! ## Text -/

/-- A run that stops at references is cut short by one. -/
theorem takeWhile_split (folds : Folds text folded) {test : Char → Bool}
    (sign : test '&' = false) : ∃ back, text.takeWhile test = folded.takeWhile test ++ back ∧
      Folds (back ++ text.dropWhile test) (folded.dropWhile test) := by
  induction folds with
  | nil => exact ⟨[], rfl, .nil⟩
  | cons c rest ih =>
      obtain ⟨back, split, behind⟩ := ih
      cases holds : test c with
      | true => exact ⟨back, by simp [holds, split], by simpa [holds] using behind⟩
      | false => exact ⟨[], by simp [holds], by simpa [holds] using Folds.cons c rest⟩
  | @feed text folded rest =>
      refine ⟨('\n' :: text).takeWhile test, by simp [sign], ?_⟩
      rw [List.takeWhile_append_dropWhile]
      simpa [sign] using Folds.feed rest

theorem readAmpersand (folds : Folds text folded) (reading : Reading) (whole : List Char) :
    PieceFolds reading whole (Html.readAmpersand reading text)
      (Html.readAmpersand reading folded) := by
  have read := folds.readReference false
  unfold Html.readAmpersand
  generalize Html.readReference false text = one at read ⊢
  generalize Html.readReference false folded = two at read ⊢
  cases read with
  | none => exact .same folds
  | @some read other same =>
      obtain ⟨value, rest⟩ := read
      obtain ⟨_, after⟩ := other
      obtain ⟨rfl, cut⟩ := same
      have behind : Folds rest after := cut.folds
      dsimp only
      rw [cut.closedBy]
      split
      · exact .same (.cons '\n' behind)
      · exact .same behind

end Folds

/-! ## Runs -/

theorem closedBy_append (front rest : List Char) :
    closedBy (front ++ rest) rest = (front.getLast? == some ';') := by
  simp [closedBy]

/-- A reference to a line feed is a run of blanks of its own. -/
theorem readAmpersand_lineFeed (reading : Reading) (rest : List Char) :
    readAmpersand reading ('#' :: '1' :: '0' :: ';' :: rest) =
      ⟨some (.blank (String.ofList ['\n'])), reading, rest⟩ := by
  have read : readReference false ('#' :: '1' :: '0' :: ';' :: rest) = some (['\n'], rest) :=
    readReference_lineFeed false rest
  have closed : closedBy ('#' :: '1' :: '0' :: ';' :: rest) rest = true :=
    closedBy_append ['#', '1', '0', ';'] rest
  rw [readAmpersand, read]
  simp [closed, textToken?, isTextBlank, isTagBlank]

/-- Whether a run that begins with one character goes on with another. -/
def goesOn (stops : Char → Bool) (c d : Char) : Bool :=
  !stops d && isTextBlank d == isTextBlank c

section

variable {reading : Reading} {stops : Char → Bool} {c : Char} {text folded : List Char}

theorem readRun_eq (reading : Reading) (stops : Char → Bool) (c : Char) (text : List Char) :
    readRun reading stops c text =
      ⟨textToken? (c :: text.takeWhile (goesOn stops c)), reading,
        text.dropWhile (goesOn stops c)⟩ := by
  have behind : text.drop (text.takeWhile (goesOn stops c)).length =
      text.dropWhile (goesOn stops c) := by
    have split := List.takeWhile_append_dropWhile (p := goesOn stops c) (l := text)
    have dropped := congrArg (List.drop (text.takeWhile (goesOn stops c)).length) split
    rw [List.drop_left] at dropped
    exact dropped.symm
  rw [← behind]
  rfl

theorem textToken?_blank {run : List Char} (blank : isTextBlank c = true) :
    textToken? (c :: run) = some (.blank (String.ofList (c :: run))) := by
  rw [textToken?, if_pos blank]

theorem run_append {front rest : List Char} (run : ∀ e ∈ front, goesOn stops c e = true)
    (ends : ∀ e ∈ rest.head?, goesOn stops c e = false) :
    (front ++ rest).takeWhile (goesOn stops c) = front ∧
      (front ++ rest).dropWhile (goesOn stops c) = rest := by
  rw [List.takeWhile_append_of_pos run, List.dropWhile_append_of_pos run]
  cases rest with
  | nil => simp
  | cons e rest => simp [ends e rfl]

/-- The rest of a run is a run. -/
theorem readRun_rest {d : Char} {back rest : List Char} (blank : isTextBlank c = true)
    (run : ∀ e ∈ d :: back, goesOn stops c e = true)
    (ends : ∀ e ∈ rest.head?, goesOn stops c e = false) :
    readRun reading stops d (back ++ rest) =
      ⟨some (.blank (String.ofList (d :: back))), reading, rest⟩ := by
  have blank' : isTextBlank d = true := by
    have first := run d List.mem_cons_self
    rw [goesOn, blank, Bool.and_eq_true] at first
    simpa using first.2
  have same : goesOn stops d = goesOn stops c := by
    funext e
    rw [goesOn, goesOn, blank, blank']
  obtain ⟨taken, left⟩ := run_append (fun e member => run e (List.mem_cons_of_mem d member)) ends
  rw [readRun_eq, same, taken, left, textToken?_blank blank']

theorem ends_dropWhile (text : List Char) :
    ∀ e ∈ (text.dropWhile (goesOn stops c)).head?, goesOn stops c e = false := by
  intro e first
  have last := List.head?_dropWhile_not (goesOn stops c) text
  rw [first] at last
  simpa using last

/-- The front of a run of blanks, if the rest of the run is read as a run. -/
theorem PieceFolds.of_run (front : List Char) {back rest after : List Char}
    (decodes : reading.decodes = true) (blank : isTextBlank c = true)
    (next : ∀ sections d rest, stops d = false → isTextBlank d = true →
      reading.next sections (d :: rest) = readRun reading stops d rest)
    (run : ∀ e ∈ back, goesOn stops c e = true) (ends : ∀ e ∈ rest.head?, goesOn stops c e = false)
    (folds : Folds (back ++ rest) after) :
    PieceFolds reading (c :: (front ++ (back ++ rest)))
      ⟨some (.blank (String.ofList (c :: (front ++ back)))), reading, rest⟩
      ⟨some (.blank (String.ofList (c :: front))), reading, after⟩ := by
  cases back with
  | nil =>
      rw [List.append_nil]
      exact .same folds
  | cons d back =>
      refine .split rfl decodes (List.cons_ne_nil c front) (List.cons_ne_nil d back)
        (fun sections => ?_) folds
      have first := run d List.mem_cons_self
      rw [goesOn, blank, Bool.and_eq_true] at first
      rw [List.cons_append, next sections d _ (by simpa using first.1) (by simpa using first.2),
        readRun_rest blank run ends]

namespace Folds

variable (folds : Folds text folded)

include folds

/-- A run in which references count. -/
theorem readRun (decodes : reading.decodes = true) (sign : stops '&' = true)
    (next : ∀ sections d rest, stops d = false → isTextBlank d = true →
      reading.next sections (d :: rest) = Html.readRun reading stops d rest) :
    PieceFolds reading (c :: text) (Html.readRun reading stops c text)
      (Html.readRun reading stops c folded) := by
  have stopped : goesOn stops c '&' = false := by simp [goesOn, sign]
  cases blank : isTextBlank c with
  | true =>
      obtain ⟨back, split, behind⟩ := folds.takeWhile_split stopped
      have whole : text = folded.takeWhile (goesOn stops c) ++
          (back ++ text.dropWhile (goesOn stops c)) := by
        rw [← List.append_assoc, ← split, List.takeWhile_append_dropWhile]
      have run : ∀ e ∈ back, goesOn stops c e = true := fun e member =>
        List.mem_takeWhile_imp (split ▸ List.mem_append_right _ member)
      have piece := PieceFolds.of_run (folded.takeWhile (goesOn stops c)) decodes blank next
        run (ends_dropWhile text) behind
      rw [readRun_eq, readRun_eq, split, textToken?_blank blank, textToken?_blank blank]
      rw [← whole] at piece
      exact piece
  | false =>
      have other : isTextBlank '\n' ≠ isTextBlank c := by
        rw [blank]
        decide
      have feed : goesOn stops c '\n' = false := by
        rw [goesOn, beq_false_of_ne other, Bool.and_false]
      obtain ⟨same, cut⟩ := folds.cut_takeWhile feed stopped
      change PieceFolds reading (c :: text)
        ⟨textToken? (c :: text.takeWhile (goesOn stops c)), reading,
          text.drop (text.takeWhile (goesOn stops c)).length⟩
        ⟨textToken? (c :: folded.takeWhile (goesOn stops c)), reading,
          folded.drop (folded.takeWhile (goesOn stops c)).length⟩
      rw [same]
      exact .same cut.folds

/-- A line feed of the text and the reference to it. -/
theorem readRun_feed (decodes : reading.decodes = true)
    (next : ∀ sections d rest, stops d = false → isTextBlank d = true →
      reading.next sections (d :: rest) = Html.readRun reading stops d rest) :
    PieceFolds reading ('\n' :: text) (Html.readRun reading stops '\n' text)
      (Html.readAmpersand reading ('#' :: '1' :: '0' :: ';' :: folded)) := by
  have split := List.takeWhile_append_dropWhile (p := goesOn stops '\n') (l := text)
  have piece := @PieceFolds.of_run reading stops '\n' [] _ _ folded decodes rfl next
    (fun e member => List.mem_takeWhile_imp member) (ends_dropWhile text) (split.symm ▸ folds)
  rw [List.nil_append, split] at piece
  rw [readRun_eq, readAmpersand_lineFeed, textToken?_blank rfl]
  exact piece

/-- A run without line feeds, up to where another text begins. -/
theorem readRun_plain (plain : '\n' ∉ c :: text.takeWhile (goesOn stops c))
    (later : '\n' ∉ (text.dropWhile (goesOn stops c)).takeWhile (· != '>')) :
    PieceFolds reading (c :: text) (Html.readRun reading stops c text)
      (Html.readRun reading stops c folded) := by
  rw [List.mem_cons, not_or] at plain
  have split := List.takeWhile_append_dropWhile (p := goesOn stops c) (l := text)
  have run : ∀ e ∈ text.takeWhile (goesOn stops c), goesOn stops c e = true := fun e member =>
    List.mem_takeWhile_imp member
  have ends := @ends_dropWhile stops c text
  generalize text.takeWhile (goesOn stops c) = front at split plain run
  generalize text.dropWhile (goesOn stops c) = rest at split later ends
  subst split
  obtain ⟨after, rfl, behind⟩ := folds.front_inv plain.2
  have endsFolded : ∀ e ∈ after.head?, goesOn stops c e = false := by
    cases behind with
    | nil => exact ends
    | cons e _ => exact ends
    | feed _ => simp at later
  obtain ⟨taken, left⟩ := run_append run ends
  obtain ⟨takenFolded, leftFolded⟩ := run_append run endsFolded
  rw [readRun_eq, readRun_eq, taken, left, takenFolded, leftFolded]
  exact .same behind

end Folds

end

end Bindery.Html
