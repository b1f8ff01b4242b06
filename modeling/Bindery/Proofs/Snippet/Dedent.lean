import Bindery.Proofs.Snippet.FlushLeft
import Bindery.Proofs.Text.ByteOrder
import Mathlib.Data.List.Forall2

/-!
# What lines lose

Each line loses spaces and tabs, and the lines that are not blank lose the same number of them.
Only the number is compared: which of them are spaces and which are tabs is not. So the lines lose
the same text exactly if the narrowest indentation is the beginning of all others.
-/

set_option autoImplicit false

namespace Bindery.Snippet

/-- The lines of the one text, in their order, have become those of the other one. -/
def LineByLine (becomes : List Char → List Char → Prop) (text output : List Char) : Prop :=
  ∃ shown, output = Text.join ['\n'] shown ∧ (∀ line ∈ shown, '\n' ∉ line) ∧
    List.Forall₂ becomes (Text.lines text) shown

/-- What is shown of a line that loses spaces and tabs, as many as told if it is not blank. Without
as many of its bytes the line still is a text, so no character has been cut. -/
def Dedents (width : Nat) (line shown : List Char) : Prop :=
  ∃ front, line = front ++ shown ∧ (∀ c ∈ front, c = ' ' ∨ c = '\t') ∧
    (Text.bytes line).drop front.length = Text.bytes shown ∧
    (Visible line → front.length = width ∧ indentWidth line = width + indentWidth shown)

/-- A line that loses exactly this text, unless it is blank. -/
def Loses (front line shown : List Char) : Prop := Visible line → line = front ++ shown

/-- The spaces and tabs that a line starts with. -/
def indentation (line : List Char) : List Char := line.takeWhile isIndent

/-- Among the lines that are not blank, the indentation of the narrowest is the beginning of all
others. -/
def Aligned (lines : List (List Char)) : Prop :=
  ∀ narrow ∈ lines, Visible narrow →
    (∀ line ∈ lines, Visible line → indentWidth narrow ≤ indentWidth line) →
      ∀ line ∈ lines, Visible line → indentation narrow <+: indentation line

instance : DecidablePred Aligned := fun lines =>
  inferInstanceAs (Decidable (∀ narrow ∈ lines, Visible narrow →
    (∀ line ∈ lines, Visible line → indentWidth narrow ≤ indentWidth line) →
      ∀ line ∈ lines, Visible line → indentation narrow <+: indentation line))

section

variable {line front rest : List Char} {lines : List (List Char)} {width : Nat}

/-! ## One line -/

theorem isIndent_iff {c : Char} : isIndent c = true ↔ c = ' ' ∨ c = '\t' := by
  simp [isIndent]

theorem indentation_append (all : ∀ c ∈ front, isIndent c = true) (rest : List Char) :
    indentation (front ++ rest) = front ++ indentation rest :=
  List.takeWhile_append_of_pos all

theorem length_indentation (line : List Char) : (indentation line).length = indentWidth line := rfl

theorem indentation_begins (line : List Char) : indentation line <+: line :=
  List.takeWhile_prefix isIndent

/-- A line as wide as told loses just as much. -/
theorem exists_dropIndent_of_le (wide : width ≤ indentWidth line) : ∃ front,
    line = front ++ dropIndent width line ∧ (∀ c ∈ front, isIndent c = true) ∧
      front.length = width := by
  obtain ⟨front, whole, all⟩ := exists_dropIndent width line
  have left := indentWidth_dropIndent width line
  have total := congrArg List.length (indentation_append all (dropIndent width line))
  rw [← whole, List.length_append, length_indentation, length_indentation] at total
  exact ⟨front, whole, all, by omega⟩

theorem length_bytes_of_indent (all : ∀ c ∈ front, isIndent c = true) :
    (Text.bytes front).length = front.length := by
  induction front with
  | nil => rfl
  | cons c front ih =>
      obtain ⟨first, others⟩ := List.forall_mem_cons.mp all
      have single : (String.utf8EncodeChar c).length = 1 := by
        rcases isIndent_iff.mp first with rfl | rfl <;> decide
      have cons : Text.bytes (c :: front) = String.utf8EncodeChar c ++ Text.bytes front := rfl
      rw [cons, List.length_append, single, ih others, List.length_cons, Nat.add_comm]

theorem drop_bytes_append (all : ∀ c ∈ front, isIndent c = true) (rest : List Char) :
    (Text.bytes (front ++ rest)).drop front.length = Text.bytes rest := by
  have append : Text.bytes (front ++ rest) = Text.bytes front ++ Text.bytes rest :=
    List.flatMap_append
  rw [append, ← length_bytes_of_indent all, List.drop_left]

theorem dedents_dropIndent (wide : Visible line → width ≤ indentWidth line) :
    Dedents width line (dropIndent width line) := by
  obtain ⟨front, whole, all⟩ := exists_dropIndent width line
  refine ⟨front, whole, fun c member => isIndent_iff.mp (all c member), ?_, fun visible => ?_⟩
  · conv_lhs => rw [whole]
    exact drop_bytes_append all _
  · have wide := wide visible
    obtain ⟨taken, same, -, length⟩ := exists_dropIndent_of_le wide
    have equal : front = taken := List.append_cancel_right (whole.symm.trans same)
    rw [indentWidth_dropIndent]
    exact ⟨equal ▸ length, by omega⟩

/-! ## The lines of a text -/

/-- The text without the indentation has a line for each line of the text. -/
theorem lineByLine_stripIndent_iff {becomes : List Char → List Char → Prop} (text : List Char) :
    LineByLine becomes text (stripIndent text) ↔
      ∀ line ∈ Text.lines text,
        becomes line (dropIndent (commonIndent (Text.lines text)) line) := by
  have plain : ∀ line ∈ stripLines (Text.lines text), '\n' ∉ line := fun _ =>
    lineFeed_not_mem_of_mem_stripLines fun _ => Text.lineFeed_not_mem_of_mem_lines
  have mapped : List.Forall₂ becomes (Text.lines text) (stripLines (Text.lines text)) ↔
      ∀ line ∈ Text.lines text,
        becomes line (dropIndent (commonIndent (Text.lines text)) line) := by
    rw [stripLines, List.forall₂_map_right_iff, List.forall₂_same]
  constructor
  · rintro ⟨shown, joined, feeds, each⟩
    have same : stripLines (Text.lines text) = shown := by
      by_cases none : Text.lines text = []
      · rw [none, List.forall₂_nil_left_iff] at each
        rw [none, each]
        rfl
      · have some : stripLines (Text.lines text) ≠ [] := by simpa [stripLines] using none
        have shownSome : shown ≠ [] := by
          rintro rfl
          exact none (List.forall₂_nil_right_iff.mp each)
        rw [← linesOf_join some plain, ← linesOf_join shownSome feeds, ← joined, stripIndent]
    exact mapped.mp (same ▸ each)
  · exact fun each => ⟨_, rfl, plain, mapped.mpr each⟩

theorem commonIndent_le (member : line ∈ lines) (visible : Visible line) :
    commonIndent lines ≤ indentWidth line :=
  (isLeast_commonIndent ⟨line, member, visible⟩).2 ⟨line, member, visible, rfl⟩

/-- Each line of a text loses only spaces and tabs, the lines that are not blank all lose the same
number of them, and then one of those starts with neither. -/
theorem stripIndent_dedents (text : List Char) :
    ∃ width, LineByLine (Dedents width) text (stripIndent text) ∧
      FlushLeft (linesOf (stripIndent text)) := by
  refine ⟨commonIndent (Text.lines text), (lineByLine_stripIndent_iff text).mpr ?_, ?_⟩
  · exact fun line member => dedents_dropIndent (commonIndent_le member)
  · rw [(sameLines_linesOf_stripIndent text).flushLeft_iff]
    exact flushLeft_stripLines _

example : stripIndent "  \ta\n \u00a0\n\n  b".toList = "\ta\n\u00a0\n\nb".toList := by decide

/-! ## Tabs and spaces -/

/-- All lines lose the same text exactly if they are aligned. -/
theorem exists_loses_iff (lines : List (List Char)) :
    (∃ front, ∀ line ∈ lines, Loses front line (dropIndent (commonIndent lines) line)) ↔
      Aligned lines := by
  constructor
  · rintro ⟨front, loses⟩ narrow among visible narrowest line member shown
    obtain ⟨taken, whole, all, length⟩ := exists_dropIndent_of_le (commonIndent_le among visible)
    obtain rfl : front = taken :=
      List.append_cancel_right ((loses narrow among visible).symm.trans whole)
    obtain ⟨⟨least, inside, least', width⟩, -⟩ := isLeast_commonIndent ⟨narrow, among, visible⟩
    have equal : (indentation narrow).length = front.length := by
      have := narrowest least inside least'
      have := commonIndent_le among visible
      rw [length_indentation]
      omega
    have start : front <+: indentation narrow := by
      rw [whole, indentation_append all]
      exact List.prefix_append _ _
    rw [← start.eq_of_length equal.symm, loses line member shown, indentation_append all]
    exact List.prefix_append _ _
  · intro aligned
    by_cases some : ∃ line ∈ lines, Visible line
    · obtain ⟨⟨narrow, among, visible, width⟩, below⟩ := isLeast_commonIndent some
      refine ⟨indentation narrow, fun line member shown => ?_⟩
      obtain ⟨front, whole, -, length⟩ := exists_dropIndent_of_le (commonIndent_le member shown)
      have start : indentation narrow <+: line :=
        (aligned narrow among visible (fun other inside other' =>
          width.trans_le (below ⟨other, inside, other', rfl⟩)) line member shown).trans
            (indentation_begins line)
      have same : indentation narrow = front := by
        refine List.IsPrefix.eq_of_length ?_ (by rw [length_indentation, width, length])
        exact List.prefix_of_prefix_length_le start ⟨_, whole.symm⟩
          (by rw [length_indentation, width, length])
      rw [same]
      exact whole
    · exact ⟨[], fun line member shown => absurd ⟨line, member, shown⟩ some⟩

/-- What all lines lose that are not blank is the longest indentation that they share. -/
theorem prefix_of_loses {other : List Char}
    (loses : ∀ line ∈ lines, Loses front line (dropIndent (commonIndent lines) line))
    (some : ∃ line ∈ lines, Visible line) (all : ∀ c ∈ other, isIndent c = true)
    (shared : ∀ line ∈ lines, Visible line → other <+: line) : other <+: front := by
  obtain ⟨⟨narrow, among, visible, width⟩, -⟩ := isLeast_commonIndent some
  obtain ⟨taken, whole, -, length⟩ := exists_dropIndent_of_le (commonIndent_le among visible)
  obtain rfl : front = taken :=
    List.append_cancel_right ((loses narrow among visible).symm.trans whole)
  obtain ⟨rest, begins⟩ := shared narrow among visible
  have inside : other <+: indentation narrow := by
    rw [← begins, indentation_append all]
    exact List.prefix_append _ _
  refine List.prefix_of_prefix_length_le ⟨rest, begins⟩ ⟨_, whole.symm⟩ ?_
  have := inside.length_le
  rw [length_indentation] at this
  omega

/-- The lines that are not blank all lose the same text exactly if the indentation of the narrowest
is the beginning of all others. Then it is the longest indentation that they share. -/
theorem stripIndent_loses_iff (text : List Char) :
    ((∃ front, LineByLine (Loses front) text (stripIndent text)) ↔ Aligned (Text.lines text)) ∧
      ∀ front, LineByLine (Loses front) text (stripIndent text) →
        (∃ line ∈ Text.lines text, Visible line) →
        ∀ other, (∀ c ∈ other, isIndent c = true) →
          (∀ line ∈ Text.lines text, Visible line → other <+: line) → other <+: front := by
  simp only [lineByLine_stripIndent_iff]
  exact ⟨exists_loses_iff _, fun front loses some other => prefix_of_loses loses some⟩

/-- A tab in front of one line and a space in front of the other one are taken for the same. -/
theorem stripIndent_tab_and_space :
    stripIndent "\ta\n b".toList = "a\nb".toList ∧
      ¬ ∃ front, LineByLine (Loses front) "\ta\n b".toList (stripIndent "\ta\n b".toList) := by
  have split : Text.lines "\ta\n b".toList = ["\ta".toList, " b".toList] := by decide
  refine ⟨by decide, ?_⟩
  rintro ⟨front, each⟩
  rw [lineByLine_stripIndent_iff, split] at each
  have aligned := (exists_loses_iff _).mp ⟨front, each⟩
  exact absurd aligned (by decide)

end

end Bindery.Snippet
