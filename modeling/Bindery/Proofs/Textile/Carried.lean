import Bindery.Proofs.Textile.Block
import Bindery.Proofs.Textile.Rules
import Bindery.Proofs.Textile.StandIn
import Mathlib.Data.List.Forall2

/-!
# From the text to the blocks

A rule writes signs for signs and leaves the rest of what it takes, in its order or
in another one. So what a text carries is in its blocks, and each of them carries
it when it is rendered.
-/

set_option autoImplicit false

namespace Bindery.Textile

/-! ## Signs -/

section

variable {text content : List Char} {c : Char}

theorem isDecimalDigit_of_isBlank (blank : Text.isBlank c = true) :
    Text.isDecimalDigit c = false := by
  have apart : ∀ first ∈ Text.digitZeros, ∀ range ∈ Text.blankRanges,
      range.2 < first ∨ first + 9 < range.1 := by
    decide
  rw [Text.isBlank, Text.inRanges, List.any_eq_true] at blank
  obtain ⟨range, member, within⟩ := blank
  rw [Bool.and_eq_true, decide_eq_true_iff, decide_eq_true_iff] at within
  rw [Text.isDecimalDigit, List.any_eq_false]
  intro first zero digit
  rw [Bool.and_eq_true, decide_eq_true_iff, decide_eq_true_iff] at digit
  have outside := apart first zero range member
  omega

theorem active_of_isBlank (blank : Text.isBlank c = true) : isPassive c = false := by
  simp [isPassive, blank]

theorem active_of_isDecimalDigit (digit : Text.isDecimalDigit c = true) : isPassive c = false := by
  simp [isPassive, digit]

theorem endsStandIn_of_isBlank (blank : Text.isBlank c = true) : endsStandIn c = true :=
  endsStandIn_of_active (active_of_isBlank blank) (isDecimalDigit_of_isBlank blank)

theorem isSign_cons (ends : endsStandIn c = true) (front : isPassive c = false)
    (active : ∀ d ∈ text, isPassive d = false) : IsSign (c :: text) where
  active d member := by
    rcases List.mem_cons.mp member with rfl | behind
    · exact front
    · exact active d behind
  ends := ends

/-- A line feed with signs behind it is one sign. -/
theorem isSign_feed (active : ∀ d ∈ text, isPassive d = false) : IsSign ('\n' :: text) :=
  isSign_cons (by decide) (by decide) active

theorem isSign_lineFeed : IsSign ['\n'] := isSign_feed (by decide)

theorem isSign_blanks (blank : ∀ d ∈ text, Text.isBlank d = true) : IsSign (text ++ ['\n']) := by
  cases text with
  | nil => exact isSign_lineFeed
  | cons d text =>
      have first := blank d List.mem_cons_self
      refine isSign_cons (endsStandIn_of_isBlank first) (active_of_isBlank first) fun e member => ?_
      rcases List.mem_append.mp member with later | last
      · exact active_of_isBlank (blank e (List.mem_cons_of_mem d later))
      · obtain rfl := List.mem_singleton.mp last
        decide

theorem active_of_decimal (decimal : ∀ digit ∈ text, Text.isDecimalDigit digit = true) :
    ∀ digit ∈ text, isPassive digit = false :=
  fun digit member => active_of_isDecimalDigit (decimal digit member)

/-- The tags of an element whose name has only letters. -/
theorem isSign_tags {name : String} (active : ∀ c ∈ name.toList, isPassive c = false) :
    IsSign ("<".toList ++ name.toList ++ ">".toList) ∧
      IsSign ("</".toList ++ name.toList ++ ">".toList) := by
  have opening : IsSign "<".toList := ⟨by decide, by decide⟩
  have closing : IsSign "</".toList := ⟨by decide, by decide⟩
  exact ⟨(opening.append active).append (by decide), (closing.append active).append (by decide)⟩

theorem element_eq (name : String) (content : List Char) :
    element name content = ("<".toList ++ name.toList ++ ">".toList) ++
      (content ++ ("</".toList ++ name.toList ++ ">".toList)) := by
  unfold element
  simp only [List.append_assoc]

end

/-! ## The rules within a line -/

section

variable {text content : List Char} {mark : Char}

theorem standsFor_substitute {rule : Text.Rule}
    (uses : Text.UsedAs rule fun taken written _ => StandsFor written taken) (text : List Char) :
    StandsFor (Text.substitute rule text) text := by
  refine uses.induction (motive := fun text written => StandsFor written text) (.refl []) ?_ ?_ text
  · intro c rest _ later
    exact (StandsFor.refl [c]).append later
  · intro taken rest written _ same later
    exact same.append later

theorem standsFor_substitute_escapeSign (text : List Char) :
    StandsFor (Text.substitute escapeSign text) text := by
  refine standsFor_substitute (usedAs_escapeSign.imp ?_) text
  intro taken written _ escaped
  rcases escaped.1 with rfl | listed
  · exact .refl _
  · have signs : ∀ pair ∈ [(['&'], "&amp;".toList), (['<'], "&lt;".toList), (['>'], "&gt;".toList)],
        (∀ c ∈ pair.1, isPassive c = false) ∧ pair.1.head?.any endsStandIn = true ∧
          (∀ c ∈ pair.2, isPassive c = false) ∧ pair.2.head?.any endsStandIn = true := by
      decide
    obtain ⟨taken, first, written, second⟩ := signs _ listed
    exact IsSign.standsFor ⟨written, second⟩ ⟨taken, first⟩

theorem standsFor_escapeText (text : List Char) : StandsFor (escapeText text) text := by
  have whole : (pieces text).flatMap Piece.content = text := flatMap_piecesAfter 0 text
  conv => rhs; rw [← whole]
  refine standsFor_flatMap fun piece _ => ?_
  cases piece with
  | kept content => exact .refl content
  | plain content => exact standsFor_substitute_escapeSign content

theorem isSign_footnoteReference {digits : List Char}
    (decimal : ∀ digit ∈ digits, Text.isDecimalDigit digit = true) :
    IsSign (footnoteReference digits) := by
  have first : IsSign "<sup class=\"footnote\" id=\"fnr".toList := ⟨by decide, by decide⟩
  have number := active_of_decimal decimal
  have target := (first.append number).append (by decide : ∀ c ∈ "\"><a href=\"#fn".toList, _)
  have link := (target.append number).append (by decide : ∀ c ∈ "\">".toList, _)
  exact (link.append number).append (by decide)

theorem standsFor_substitute_footnoteRule (text : List Char) :
    StandsFor (Text.substitute footnoteRule text) text := by
  refine standsFor_substitute (usedAs_footnoteRule.imp ?_) text
  rintro _ _ _ ⟨c, digits, decimal, rfl, rfl⟩
  have bracket : IsSign ('[' :: (digits ++ [']'])) := by
    refine isSign_cons (by decide) (by decide) fun d member => ?_
    rcases List.mem_append.mp member with digit | last
    · exact active_of_decimal decimal d digit
    · obtain rfl := List.mem_singleton.mp last
      decide
  exact (StandsFor.refl [c]).append ((isSign_footnoteReference decimal).standsFor bracket)

/-- Signs around a content may be others. -/
theorem standsFor_between {front back first last : List Char} (opens : IsSign front)
    (closes : IsSign back) (opened : IsSign first) (closed : IsSign last) (content : List Char) :
    StandsFor (front ++ (content ++ back)) (first ++ (content ++ last)) :=
  (opens.standsFor opened).append ((StandsFor.refl content).append (closes.standsFor closed))

theorem standsFor_element {name : String} (active : ∀ c ∈ name.toList, isPassive c = false)
    (signed : IsSign [mark]) (content : List Char) :
    StandsFor (element name content) (mark :: (content ++ [mark])) := by
  obtain ⟨opens, closes⟩ := isSign_tags active
  rw [element_eq]
  exact standsFor_between opens closes signed signed content

theorem standsFor_substitute_phraseRule {name : String}
    (active : ∀ c ∈ name.toList, isPassive c = false) (signed : IsSign [mark]) (text : List Char) :
    StandsFor (Text.substitute (phraseRule mark name) text) text := by
  refine standsFor_substitute ((usedAs_phraseRule name).imp ?_) text
  rintro _ _ _ ⟨content, -, -, rfl, rfl⟩
  exact standsFor_element active signed content

theorem standsFor_emphasise (text : List Char) : StandsFor (emphasise text) text := by
  have mark : IsSign ['_'] := ⟨by decide, by decide⟩
  have later : ∀ text, StandsFor (Text.substitute emphasisRule text) text := by
    refine standsFor_substitute (usedAs_emphasisRule.imp ?_)
    rintro _ _ _ ⟨c, content, -, -, -, rfl, rfl⟩
    exact (StandsFor.refl [c]).append (standsFor_element (by decide) mark content)
  unfold emphasise
  split
  · next content found =>
      obtain ⟨-, -, rest, rfl⟩ := eq_of_phrase? found
      have split : '_' :: (content ++ '_' :: rest) = '_' :: (content ++ ['_']) ++ rest := by
        rw [List.cons_append, List.append_assoc, List.singleton_append]
      have length : content.length + 2 = ('_' :: (content ++ ['_'])).length := by
        simp only [List.length_cons, List.length_append, List.length_nil]
      rw [split, length, List.drop_left]
      exact (standsFor_element (by decide) mark content).append (later rest)
  · exact later text

/-- What follows an address ends a stand-in. -/
theorem ends_of_address {target rest : List Char} (found : address (target ++ rest) = target) :
    rest.head?.all endsStandIn = true := by
  have trailing : ∀ c, isTrailing c = true → endsStandIn c = true := by
    intro c among
    have each : ∀ c ∈ ['.', ',', ';', ':', '!', '?', ')'], endsStandIn c = true := by decide
    exact each c (List.contains_iff_mem.mp among)
  have stops := List.head?_dropWhile_not (fun c => !Text.isBlank c && c != '<') (target ++ rest)
  have whole := List.takeWhile_append_dropWhile (p := fun c => !Text.isBlank c && c != '<')
    (l := target ++ rest)
  obtain ⟨dropped, behind, all⟩ := Text.exists_dropEndWhile isTrailing
    ((target ++ rest).takeWhile fun c => !Text.isBlank c && c != '<')
  unfold address at found
  rw [found] at behind
  rw [← behind, List.append_assoc, List.append_cancel_left_eq] at whole
  cases dropped with
  | cons c dropped =>
      rw [← whole]
      exact trailing c (all c List.mem_cons_self)
  | nil =>
      rw [List.nil_append] at whole
      rw [whole] at stops
      cases rest with
      | nil => rfl
      | cons c rest =>
          have other : Text.isBlank c = true ∨ c = '<' := by
            simpa [Decidable.or_iff_not_imp_left] using stops
          have bracket : endsStandIn '<' = true := by decide
          rcases other with blank | rfl
          · exact endsStandIn_of_isBlank blank
          · exact bracket

theorem endsAs_substitute_linkRule (text : List Char) :
    EndsAs (Text.substitute linkRule text) text := by
  refine usedAs_linkRule.induction (motive := fun text written => EndsAs written text)
    (StandsFor.refl []).endsAs ?_ ?_ text
  · intro c rest _ later before after ends
    have kept := later (before ++ [c]) after ends
    rwa [List.append_assoc, List.append_assoc] at kept
  · rintro _ rest _ - ⟨label, target, -, -, -, found, rfl, rfl⟩ later before after ends
    have opening : IsSign "<a href=\"".toList := ⟨by decide, by decide⟩
    have middle : IsSign "\">".toList := ⟨by decide, by decide⟩
    have closing : IsSign "</a>".toList := ⟨by decide, by decide⟩
    have quote : IsSign ['"'] := ⟨by decide, by decide⟩
    have colon : IsSign ['"', ':'] := ⟨by decide, by decide⟩
    have follows : (rest ++ after).head?.all endsStandIn = true := by
      have behind := ends_of_address found
      cases rest with
      | nil => exact ends
      | cons c rest => exact behind
    have carried := later [] after ends
    have written : before ++ ("<a href=\"".toList ++ target ++ "\">".toList ++ label ++
        "</a>".toList ++ Text.substitute linkRule rest ++ after) =
        before ++ ("<a href=\"".toList ++ (target ++ ("\">".toList ++ (label ++ ("</a>".toList ++
          (Text.substitute linkRule rest ++ after)))))) := by
      simp only [List.append_assoc]
    have taken : before ++ ('"' :: (label ++ '"' :: ':' :: target) ++ rest ++ after) =
        before ++ (['"'] ++ (label ++ (['"', ':'] ++ (target ++ (rest ++ after))))) := by
      simp only [List.append_assoc, List.cons_append, List.nil_append]
    rw [written, taken]
    constructor
    · rw [opening.standIns_append, middle.standIns_append, closing.standIns_append,
        quote.standIns_append, colon.standIns_append, standIns_append follows]
      -- The address comes before the label now.
      refine List.Perm.append_left _ ((List.perm_append_comm_assoc _ _ _).trans ?_)
      exact (carried.standIns.append_left _).append_left _
    · intro c passive
      have same := carried.count c passive
      simp only [List.nil_append, List.count_append] at same
      simp only [List.count_append, count_of_active opening.active passive,
        count_of_active middle.active passive, count_of_active closing.active passive,
        count_of_active quote.active passive, count_of_active colon.active passive]
      omega

/-- The rules within a line leave what a phrase carries. -/
theorem endsAs_renderInline (phrase : List Char) : EndsAs (renderInline phrase) phrase := by
  have code : ∀ text, StandsFor (Text.substitute (phraseRule '@' "code") text) text :=
    standsFor_substitute_phraseRule (by decide) ⟨by decide, by decide⟩
  have strong : ∀ text, StandsFor (Text.substitute (phraseRule '*' "strong") text) text :=
    standsFor_substitute_phraseRule (by decide) ⟨by decide, by decide⟩
  have noted := (standsFor_substitute_footnoteRule _).trans (standsFor_escapeText phrase)
  have linked := (endsAs_substitute_linkRule _).trans noted.endsAs
  exact (((standsFor_emphasise _).trans (strong _)).trans (code _)).endsAs.trans linked

end

/-! ## Lines -/

/-- The texts stand in the other one after another, with a sign before each and behind the last. -/
inductive Spread : List (List Char) → List Char → Prop where
  | nil {sign : List Char} (signed : IsSign sign) : Spread [] sign
  | cons {sign piece behind : List Char} {pieces : List (List Char)} (signed : IsSign sign)
      (later : Spread pieces behind) : Spread (piece :: pieces) (sign ++ (piece ++ behind))

/-- The text is the rest of the block behind a start that has nothing to carry. -/
def BehindLead (text block : List Char) : Prop :=
  ∃ lead, (∀ c ∈ lead, isPassive c = false) ∧ block = lead ++ text

/-- The lines, each behind a line feed, and one more line feed. -/
def rows (lines : List (List Char)) : List Char := lines.flatMap ('\n' :: ·) ++ ['\n']

section

variable {text block line sign : List Char} {pieces lines : List (List Char)}

theorem rows_cons (line : List Char) (lines : List (List Char)) :
    rows (line :: lines) = '\n' :: (line ++ rows lines) := by
  unfold rows
  rw [List.flatMap_cons, List.append_assoc, List.cons_append]

theorem exists_rows (lines : List (List Char)) : ∃ tail, rows lines = '\n' :: tail := by
  cases lines with
  | nil => exact ⟨[], rfl⟩
  | cons line lines => exact ⟨_, rows_cons line lines⟩

theorem Spread.ends (spread : Spread pieces text) : text.head?.any endsStandIn = true := by
  cases spread with
  | nil signed => exact signed.ends
  | cons signed _ => exact head?_append_ends signed.ends _

/-- What stands between signs may stand between other ones. -/
theorem Spread.standsFor {others : List (List Char)} {first second : List Char}
    (written : Spread pieces first) (taken : Spread others second)
    (each : List.Forall₂ EndsAs pieces others) : StandsFor first second := by
  induction each generalizing first second with
  | nil =>
      cases written with
      | nil written =>
          cases taken with
          | nil taken => exact written.standsFor taken
  | cons same _ ih =>
      cases written with
      | cons signed written =>
          cases taken with
          | cons other taken =>
              exact (signed.standsFor other).append (same.append written.ends (ih written taken))

theorem spread_rows (lines : List (List Char)) : Spread lines (rows lines) := by
  induction lines with
  | nil => exact .nil isSign_lineFeed
  | cons line lines ih =>
      rw [rows_cons]
      exact .cons isSign_lineFeed ih

theorem standsFor_rows_of_first (first : ∀ line others, Text.lines text = line :: others →
    StandsFor (line ++ rows others) (text ++ ['\n'])) :
    StandsFor (rows (Text.lines text)) ('\n' :: (text ++ ['\n'])) := by
  cases read : Text.lines text with
  | nil =>
      obtain rfl : text = [] := by
        by_contra nonempty
        exact Text.lines_ne_nil nonempty read
      exact isSign_lineFeed.standsFor (isSign_feed (by decide))
  | cons line others =>
      rw [rows_cons]
      exact (StandsFor.refl ['\n']).append (first line others read)

theorem standsFor_rows_cons (line : List Char) (others : List (List Char))
    (read : Text.lines text = line :: others) :
    StandsFor (line ++ rows others) (text ++ ['\n']) := by
  fun_induction Text.lines text generalizing line others with
  | case1 => cases read
  | case2 rest ih =>
      obtain ⟨rfl, rfl⟩ := List.cons.inj read
      exact standsFor_rows_of_first ih
  | case3 rest ih =>
      obtain ⟨rfl, rfl⟩ := List.cons.inj read
      have ending : StandsFor ['\n'] ['\r', '\n'] :=
        isSign_lineFeed.standsFor ⟨by decide, by decide⟩
      exact (standsFor_rows_of_first ih).trans (ending.append (.refl (rest ++ ['\n'])))
  | case4 c rest _ _ none ih =>
      obtain ⟨rfl, rfl⟩ := List.cons.inj read
      obtain rfl : rest = [] := by
        by_contra nonempty
        exact Text.lines_ne_nil nonempty none
      exact .refl _
  | case5 c rest _ _ next more found ih =>
      obtain ⟨rfl, rfl⟩ := List.cons.inj read
      exact (StandsFor.refl [c]).append (ih next more found)

/-- The lines of a text are the text but for their ends. -/
theorem standsFor_rows (text : List Char) :
    StandsFor (rows (Text.lines text)) ('\n' :: (text ++ ['\n'])) :=
  standsFor_rows_of_first standsFor_rows_cons

/-! ## Blocks -/

theorem flatMap_closeBlock (lines : List (List Char)) :
    (closeBlock lines).flatMap ('\n' :: ·) = lines.reverse.flatMap ('\n' :: ·) := by
  have joined : ∀ line others, '\n' :: Text.join ['\n'] (line :: others) =
      (line :: others).flatMap ('\n' :: ·) := by
    intro line others
    induction others generalizing line with
    | nil => simp [Text.join]
    | cons next others ih =>
        rw [List.flatMap_cons, ← ih next]
        simp [Text.join, List.intercalate_cons_cons]
  unfold closeBlock
  split
  · next none => rw [List.isEmpty_iff.mp none]; rfl
  · next some =>
      rw [List.isEmpty_iff, ← List.reverse_eq_nil_iff] at some
      obtain ⟨line, others, whole⟩ := List.exists_cons_of_ne_nil some
      rw [List.flatMap_singleton, whole, joined]

theorem rows_closeBlock (lines more : List (List Char)) :
    rows (closeBlock lines ++ more) = rows (lines.reverse ++ more) := by
  unfold rows
  rw [List.flatMap_append, List.flatMap_append, flatMap_closeBlock]

theorem StandsFor.rows_append {others : List (List Char)} (same : StandsFor (rows lines) (rows others))
    (before : List (List Char)) : StandsFor (rows (before ++ lines)) (rows (before ++ others)) := by
  have front := (StandsFor.refl (before.flatMap ('\n' :: ·))).append same
  unfold rows at front ⊢
  rwa [List.flatMap_append, List.flatMap_append, List.append_assoc, List.append_assoc]

/-- A line may be written with blanks around it or without them. -/
theorem standsFor_rows_blanks {front back : List Char}
    (before : ∀ c ∈ front, Text.isBlank c = true) (behind : ∀ c ∈ back, Text.isBlank c = true)
    (shown : List Char) (lines : List (List Char)) :
    StandsFor (rows (shown :: lines)) (rows ((front ++ shown ++ back) :: lines)) := by
  obtain ⟨tail, whole⟩ := exists_rows lines
  have opens : StandsFor ['\n'] ('\n' :: front) :=
    isSign_lineFeed.standsFor (isSign_feed fun c member => active_of_isBlank (before c member))
  have closes : StandsFor ['\n'] (back ++ ['\n']) :=
    isSign_lineFeed.standsFor (isSign_blanks behind)
  have together := opens.append ((StandsFor.refl shown).append (closes.append (.refl tail)))
  rw [rows_cons, rows_cons, whole]
  simpa only [List.append_assoc, List.cons_append, List.nil_append] using together

/-- A blank line may be left out. -/
theorem standsFor_rows_blank (blank : ∀ c ∈ line, Text.isBlank c = true)
    (lines : List (List Char)) : StandsFor (rows lines) (rows (line :: lines)) := by
  obtain ⟨tail, whole⟩ := exists_rows lines
  have feeds : StandsFor ['\n'] ('\n' :: (line ++ ['\n'])) := by
    refine isSign_lineFeed.standsFor (isSign_feed (isSign_blanks blank).active)
  have together := feeds.append (.refl tail)
  rw [rows_cons, whole]
  simpa only [List.append_assoc, List.cons_append, List.nil_append] using together

theorem allBlank_of_lineKind (kind : lineKind line = .blank) :
    ∀ c ∈ line, Text.isBlank c = true := by
  unfold lineKind at kind
  split at kind
  · cases kind
  · split at kind
    · next blank => exact List.all_eq_true.mp blank
    · cases kind

theorem standsFor_rows_groupLines (current lines : List (List Char)) :
    StandsFor (rows (groupLines current lines)) (rows (current.reverse ++ lines)) := by
  induction lines generalizing current with
  | nil =>
      have closed := rows_closeBlock current []
      rw [List.append_nil] at closed
      rw [groupLines, closed]
      exact .refl _
  | cons line lines ih =>
      rw [groupLines]
      cases kind : lineKind line with
      | ordinary =>
          have later := ih (line :: current)
          rw [List.reverse_cons, List.append_assoc] at later
          exact later
      | blank =>
          dsimp only
          rw [rows_closeBlock]
          have blank := allBlank_of_lineKind kind
          exact ((ih []).trans (standsFor_rows_blank blank lines)).rows_append current.reverse
      | passed =>
          dsimp only
          rw [rows_closeBlock]
          obtain ⟨front, back, whole, before, behind⟩ := Text.exists_trim line
          have trimmed := standsFor_rows_blanks before behind (Text.trim line) lines
          rw [← whole] at trimmed
          have later := (ih []).rows_append [Text.trim line]
          exact (later.trans trimmed).rows_append current.reverse

/-- The blocks of a text are the text but for blanks and line feeds. -/
theorem standsFor_rows_blocks (text : List Char) :
    StandsFor (rows (blocks text)) ('\n' :: (text ++ ['\n'])) :=
  (standsFor_rows_groupLines [] (Text.lines text)).trans (standsFor_rows text)

end

/-! ## Forms -/

section

variable {text block content line : List Char} {phrases : List (List Char)}

theorem BehindLead.trans {rest : List Char} (inner : BehindLead rest text)
    (outer : BehindLead text block) : BehindLead rest block := by
  obtain ⟨second, active, rfl⟩ := inner
  obtain ⟨first, before, rfl⟩ := outer
  refine ⟨first ++ second, fun c member => ?_, (List.append_assoc _ _ _).symm⟩
  exact (List.mem_append.mp member).elim (before c) (active c)

theorem BehindLead.behind {lead : List Char} (active : ∀ c ∈ lead, isPassive c = false)
    (behind : BehindLead text block) : BehindLead text (lead ++ block) :=
  behind.trans ⟨lead, active, rfl⟩

/-- The start of a block is a sign with the line feed before it. -/
theorem BehindLead.standsFor (behind : BehindLead text block) :
    StandsFor ('\n' :: (text ++ ['\n'])) ('\n' :: (block ++ ['\n'])) := by
  obtain ⟨lead, active, rfl⟩ := behind
  have opens := (isSign_lineFeed.standsFor (isSign_feed active)).append (.refl (text ++ ['\n']))
  simpa only [List.append_assoc, List.cons_append, List.nil_append] using opens

theorem behindLead_trimStart (text : List Char) : BehindLead (Text.trimStart text) text :=
  ⟨text.takeWhile Text.isBlank, fun _ member => active_of_isBlank (List.mem_takeWhile_imp member),
    List.takeWhile_append_dropWhile.symm⟩

theorem behindLead_afterSign? {sign : List Char} (active : ∀ c ∈ sign, isPassive c = false)
    (read : afterSign? sign text = some content) : BehindLead content text := by
  unfold afterSign? at read
  split at read
  · next c rest found =>
      split at read
      · next blank =>
          obtain rfl := Option.some.inj read
          have one : ∀ d ∈ [c], isPassive d = false := by
            simpa using active_of_isBlank blank
          have dot : ∀ d ∈ ['.'], isPassive d = false := by decide
          rw [Text.dropStart?_eq_some_iff.mp found, List.append_assoc]
          exact (((behindLead_trimStart rest).behind one).behind dot).behind active
      · cases read
  · cases read

theorem behindLead_item? (read : item? line = some content) : BehindLead content line := by
  unfold item? at read
  split at read
  · next mark c rest =>
      split at read
      · next marked =>
          obtain rfl := Option.some.inj read
          rw [Bool.and_eq_true, Bool.or_eq_true, decide_eq_true_iff, decide_eq_true_iff] at marked
          have sign : isPassive mark = false := by
            rcases marked.1 with rfl | rfl <;> decide
          have signs : ∀ d ∈ [mark, c], isPassive d = false := by
            simpa using ⟨sign, active_of_isBlank marked.2⟩
          exact (behindLead_trimStart rest).behind signs
      · cases read
  · cases read

theorem behindLead_items? {lines items : List (List Char)} (read : lines.mapM item? = some items) :
    List.Forall₂ BehindLead items lines := by
  induction lines generalizing items with
  | nil =>
      cases read
      exact .nil
  | cons line lines ih =>
      rw [List.mapM_cons] at read
      obtain ⟨content, first, later⟩ := Option.bind_eq_some_iff.mp read
      obtain ⟨others, behind, same⟩ := Option.bind_eq_some_iff.mp later
      cases same
      exact .cons (behindLead_item? first) (ih behind)

theorem active_level {level : Char} (read : heading? text = some (level, content)) :
    isPassive level = false := by
  have each : ∀ level ∈ ['1', '2', '3', '4', '5', '6'], isPassive level = false := by decide
  exact each level (level_of_heading? read)

theorem behindLead_heading? {level : Char} (read : heading? text = some (level, content)) :
    BehindLead content text := by
  have active := active_level read
  unfold heading? at read
  split at read
  · next first rest =>
      split at read
      · obtain ⟨inside, found, same⟩ := Option.map_eq_some_iff.mp read
        obtain ⟨rfl, rfl⟩ := Prod.mk.inj same
        have signs : ∀ c ∈ ['h', first], isPassive c = false := by
          simpa using ⟨by decide, active⟩
        exact (behindLead_afterSign? (by decide) found).behind signs
      · cases read
  · cases read

theorem behindLead_note? {number : List Char} (read : note? text = some (number, content)) :
    BehindLead content text := by
  have decimal := decimal_of_note? read
  unfold note? at read
  split at read
  · next rest =>
      dsimp only at read
      split at read
      · cases read
      · obtain ⟨inside, found, same⟩ := Option.map_eq_some_iff.mp read
        obtain ⟨rfl, rfl⟩ := Prod.mk.inj same
        have signs : ∀ c ∈ ['f', 'n'], isPassive c = false := by decide
        have behind := (behindLead_afterSign? (by decide) found).behind (active_of_decimal decimal)
        rw [← List.prefix_append_drop (List.takeWhile_prefix _)] at behind
        exact behind.behind signs
  · cases read

theorem spread_rows_of_items {items lines : List (List Char)}
    (each : List.Forall₂ BehindLead items lines) : Spread items (rows lines) := by
  induction each with
  | nil => exact .nil isSign_lineFeed
  | @cons item _ items lines behind _ ih =>
      obtain ⟨lead, active, rfl⟩ := behind
      have spread : Spread (item :: items) (('\n' :: lead) ++ (item ++ rows lines)) :=
        .cons (isSign_feed active) ih
      rw [rows_cons]
      simpa only [List.append_assoc, List.cons_append] using spread

/-- The phrases of a block are the rest of it behind its sign, the lines of that rest, or the items
that its lines are. -/
theorem phrases_cases (other : formOf block ≠ .kept) :
    (∃ text, BehindLead text block ∧
      ((formOf block).phrases = [text] ∨ (formOf block).phrases = Text.lines text)) ∨
    List.Forall₂ BehindLead (formOf block).phrases (Text.lines (Text.trimStart block)) := by
  have trimmed := behindLead_trimStart block
  unfold formOf at other ⊢
  dsimp only at other ⊢
  split
  · next kept =>
      rw [if_pos kept] at other
      exact absurd rfl other
  · cases headed : heading? (Text.trimStart block) with
    | some heading =>
        exact .inl ⟨_, (behindLead_heading? headed).trans trimmed, .inl rfl⟩
    | none =>
        cases noted : note? (Text.trimStart block) with
        | some note => exact .inl ⟨_, (behindLead_note? noted).trans trimmed, .inl rfl⟩
        | none =>
            cases quoted : afterSign? ['b', 'q'] (Text.trimStart block) with
            | some content =>
                have behind := behindLead_afterSign? (by decide) quoted
                exact .inl ⟨_, behind.trans trimmed, .inr rfl⟩
            | none =>
                cases listed : items? (Text.trimStart block) with
                | some items => exact .inr (behindLead_items? listed)
                | none =>
                    cases signed : afterSign? ['p'] (Text.trimStart block) with
                    | some content =>
                        have behind := behindLead_afterSign? (by decide) signed
                        exact .inl ⟨_, behind.trans trimmed, .inr rfl⟩
                    | none => exact .inl ⟨_, trimmed, .inr rfl⟩

/-- The phrases of a block are the block but for its signs. -/
theorem exists_spread (other : formOf block ≠ .kept) :
    ∃ spread, Spread (formOf block).phrases spread ∧
      StandsFor spread ('\n' :: (block ++ ['\n'])) := by
  rcases phrases_cases other with ⟨text, behind, same | same⟩ | items
  · rw [same]
    exact ⟨_, .cons isSign_lineFeed (.nil isSign_lineFeed), behind.standsFor⟩
  · rw [same]
    exact ⟨_, spread_rows _, (standsFor_rows text).trans behind.standsFor⟩
  · exact ⟨_, spread_rows_of_items items,
      (standsFor_rows _).trans (behindLead_trimStart block).standsFor⟩

theorem spread_join {front back separator : List Char} (opens : IsSign front) (closes : IsSign back)
    (between : IsSign separator) (pieces : List (List Char)) :
    Spread pieces (front ++ (Text.join separator pieces ++ back)) := by
  induction pieces generalizing front with
  | nil => exact .nil (opens.append closes.active)
  | cons piece pieces ih =>
      cases pieces with
      | nil =>
          rw [Text.join, List.intercalate_singleton]
          exact .cons opens (.nil closes)
      | cons next pieces =>
          rw [Text.join, List.intercalate_cons_cons, List.append_assoc, List.append_assoc]
          exact .cons opens (ih between)

theorem spread_items {front back : List Char} (opens : IsSign front) (closes : IsSign back)
    (items : List (List Char)) :
    Spread (items.map renderInline) (front ++ (items.flatMap renderItem ++ back)) := by
  induction items generalizing front with
  | nil => exact .nil (opens.append closes.active)
  | cons item items ih =>
      have opening := opens.append (by decide : ∀ c ∈ "\t<li>".toList, isPassive c = false)
      have closing : IsSign "</li>\n".toList := ⟨by decide, by decide⟩
      have spread : Spread (renderInline item :: items.map renderInline) _ :=
        .cons opening (ih closing)
      simpa only [List.flatMap_cons, List.map_cons, renderItem, List.append_assoc] using spread

theorem spread_single {front back : List Char} (opens : IsSign front) (closes : IsSign back)
    (piece : List Char) : Spread [piece] (front ++ (piece ++ back)) :=
  .cons opens (.nil closes)

/-- What a block becomes is its phrases with signs around them. -/
theorem spread_render (other : formOf block ≠ .kept) :
    Spread ((formOf block).phrases.map renderInline)
      (['\n'] ++ ((formOf block).render block ++ ['\n'])) := by
  have active : ∀ {tag : List Char}, IsSign tag → IsSign (['\n'] ++ tag) :=
    fun signed => isSign_feed signed.active
  have feed : ∀ {tag : List Char}, IsSign tag → IsSign (tag ++ ['\n']) :=
    fun signed => signed.append (by decide)
  obtain ⟨tag, tagEnd⟩ := isSign_tags (by decide : ∀ c ∈ "p".toList, isPassive c = false)
  have between : IsSign "<br />\n".toList := ⟨by decide, by decide⟩
  cases form : formOf block with
  | kept => exact absurd form other
  | heading level content =>
      have named : ∀ c ∈ ("h".push level).toList, isPassive c = false := by
        have signed := active_level (heading?_of_formOf form)
        rw [String.toList_push]
        simpa using ⟨by decide, signed⟩
      obtain ⟨opens, closes⟩ := isSign_tags named
      have spread := spread_single (active opens) (feed closes) (renderInline content)
      rw [BlockForm.render, BlockForm.phrases, element_eq, List.map_singleton]
      simpa only [List.append_assoc] using spread
  | note number content =>
      have number := active_of_decimal (decimal_of_note? (note?_of_formOf form))
      have start : IsSign "<p class=\"footnote\" id=\"fn".toList := ⟨by decide, by decide⟩
      have target := (start.append number).append
        (by decide : ∀ c ∈ "\"><a href=\"#fnr".toList, isPassive c = false)
      have link := (target.append number).append
        (by decide : ∀ c ∈ "\"><sup>".toList, isPassive c = false)
      have opens := (link.append number).append
        (by decide : ∀ c ∈ "</sup></a> ".toList, isPassive c = false)
      have closes : IsSign "</p>".toList := ⟨by decide, by decide⟩
      have spread := spread_single (active opens) (feed closes) (renderInline content)
      rw [BlockForm.render, BlockForm.phrases, List.map_singleton]
      unfold renderNote
      simpa only [List.append_assoc] using spread
  | quote content =>
      have start : IsSign "<blockquote>\n".toList := ⟨by decide, by decide⟩
      have opens := active (start.append tag.active)
      have closes := feed (tagEnd.append
        (by decide : ∀ c ∈ "\n</blockquote>".toList, isPassive c = false))
      have spread := spread_join opens closes between ((Text.lines content).map renderInline)
      rw [BlockForm.render, BlockForm.phrases]
      unfold renderQuote
      rw [renderParagraph, renderLines, element_eq]
      simpa only [List.append_assoc] using spread
  | list ordered items =>
      have named : ∀ c ∈ (if ordered then "ol" else "ul").toList, isPassive c = false := by
        cases ordered <;> decide
      obtain ⟨opens, closes⟩ := isSign_tags named
      have spread := spread_items (feed (active opens)) (feed closes) items
      simpa only [BlockForm.render, BlockForm.phrases, renderList, element_eq, List.append_assoc,
        List.cons_append, List.nil_append] using spread
  | paragraph content =>
      have opens := active tag
      have closes := feed tagEnd
      have spread := spread_join opens closes between ((Text.lines content).map renderInline)
      rw [BlockForm.render, BlockForm.phrases, renderParagraph, renderLines, element_eq]
      simpa only [List.append_assoc] using spread

/-- A block carries the same when it is rendered. -/
theorem standsFor_renderBlock (block : List Char) :
    StandsFor ('\n' :: (renderBlock block ++ ['\n'])) ('\n' :: (block ++ ['\n'])) := by
  by_cases kept : formOf block = .kept
  · rw [renderBlock_eq_self_iff.mpr kept]
    exact .refl _
  · obtain ⟨spread, taken, same⟩ := exists_spread kept
    have each : List.Forall₂ EndsAs ((formOf block).phrases.map renderInline)
        (formOf block).phrases := by
      rw [List.forall₂_map_left_iff, List.forall₂_same]
      exact fun phrase _ => endsAs_renderInline phrase
    rw [renderBlock_eq]
    exact ((spread_render kept).standsFor taken each).trans same

theorem standsFor_flatMap_renderBlock (all : List (List Char)) :
    StandsFor ('\n' :: all.flatMap fun block => renderBlock block ++ ['\n']) (rows all) := by
  induction all with
  | nil => exact .refl _
  | cons block all ih =>
      have here := (standsFor_renderBlock block).append
        (.refl (all.flatMap fun block => renderBlock block ++ ['\n']))
      have later := (StandsFor.refl ('\n' :: block)).append ih
      rw [List.flatMap_cons, rows_cons]
      simp only [List.append_assoc, List.cons_append, List.nil_append] at here later ⊢
      exact here.trans later

/-- The blocks as HTML have the stand-ins of the text and each of its passive characters, neither
more nor fewer. -/
theorem carries_renderBlocks (text : List Char) : Carries (renderBlocks text) text := by
  have same := ((standsFor_flatMap_renderBlock (blocks text)).trans
    (standsFor_rows_blocks text)).carries
  have front : ∀ text, standIns ('\n' :: text) = standIns text :=
    fun text => standIns_append_of_not_mem (by decide : opener ∉ ['\n'])
  have back : standIns (text ++ ['\n']) = standIns text := by
    have cut : standIns (text ++ (['\n'] ++ [])) = standIns text ++ standIns [] :=
      isSign_lineFeed.standIns_append
    rwa [List.append_nil, standIns, List.append_nil] at cut
  constructor
  · have found := same.standIns
    rwa [front, front, back] at found
  · intro c passive
    have count := same.count c passive
    have feed := count_of_active isSign_lineFeed.active passive
    have cons : ∀ text : List Char, ('\n' :: text).count c = text.count c := by
      intro text
      rw [← List.singleton_append, List.count_append, feed, Nat.zero_add]
    rwa [cons, cons, List.count_append, feed, Nat.add_zero] at count

end

end Bindery.Textile
