import Bindery.Proofs.Snippet.Indent
import Bindery.Proofs.Snippet.MarkLine
import Bindery.Proofs.Snippet.Range

/-!
# Code flush left

The indentation that a part of a file shares is taken from all its lines, those with a mark
among them, and they are removed only then. So a mark that is indented less than the code
around it keeps the code from the left border, and nothing else does.
-/

set_option autoImplicit false

namespace Bindery.Snippet

/-- If there are lines that are not blank, one of them starts with neither a space nor a tab. -/
def FlushLeft (lines : List (List Char)) : Prop :=
  (∃ line ∈ lines, Visible line) →
    ∃ line ∈ lines, Visible line ∧ line.head? ≠ some ' ' ∧ line.head? ≠ some '\t'

instance : DecidablePred FlushLeft := fun lines =>
  inferInstanceAs (Decidable ((∃ line ∈ lines, Visible line) →
    ∃ line ∈ lines, Visible line ∧ line.head? ≠ some ' ' ∧ line.head? ≠ some '\t'))

/-- Some line with a mark is indented less than all the lines without one that are not blank, and
there are such lines. -/
structure Outdents (lines : List (List Char)) : Prop where
  shown : ∃ line ∈ unmarked lines, Visible line
  outdented : ∃ mark ∈ lines, IsMarkLine mark ∧
    ∀ line ∈ unmarked lines, Visible line → indentWidth mark < indentWidth line

/-- The lines of a file that a directive asks for: a range of them, those of a block, or all. -/
inductive Selects (directive : Directive) (content : List Char) : List (List Char) → Prop where
  | range {lines : List (List Char)} (mode : directive.mode = .range)
      (among : RangeLines (directive.reference.getD []) (Text.lines content) lines) :
      Selects directive content lines
  | block {above between below : List (List Char)} {first last : List Char}
      (mode : directive.mode = .block)
      (split : linesOf content = above ++ first :: (between ++ last :: below))
      (unbegun : ∀ line ∈ above, ¬ Begins (directive.reference.getD []) line)
      (begins : Begins (directive.reference.getD []) first)
      (unended : ∀ line ∈ between, ¬ Ends (directive.reference.getD []) line)
      (ends : Ends (directive.reference.getD []) last) : Selects directive content between
  | whole (mode : directive.mode = .inline ∨ directive.mode = .wholeFile) :
      Selects directive content (linesOf content)

/-- The same lines, in any order and number, but for those without characters. -/
def SameLines (lines others : List (List Char)) : Prop :=
  ∀ line, line ≠ [] → (line ∈ lines ↔ line ∈ others)

section

variable {line : List Char} {lines others : List (List Char)} {width : Nat}

/-! ## Lines of a text -/

theorem Visible.ne_nil (visible : Visible line) : line ≠ [] := by
  rintro rfl
  exact not_visible_nil visible

theorem SameLines.unmarked (same : SameLines lines others) :
    SameLines (unmarked lines) (unmarked others) := by
  intro line some
  rw [mem_unmarked_iff, mem_unmarked_iff, same line some]

theorem SameLines.flushLeft_iff (same : SameLines lines others) :
    FlushLeft lines ↔ FlushLeft others := by
  have those : ∀ p : List Char → Prop,
      (∃ line ∈ lines, Visible line ∧ p line) ↔ ∃ line ∈ others, Visible line ∧ p line := fun p =>
    exists_congr fun line => and_congr_left fun both => same line both.1.ne_nil
  have some := those fun _ => True
  simp only [and_true] at some
  rw [FlushLeft, FlushLeft, some, those]

theorem sameLines_linesOf_join (plain : ∀ line ∈ lines, '\n' ∉ line) :
    SameLines (linesOf (Text.join ['\n'] lines)) lines := by
  intro line some
  cases lines with
  | nil => simpa [linesOf, Text.join, Text.splitWhere] using some
  | cons first lines => rw [linesOf_join (List.cons_ne_nil first lines) plain]

theorem eq_nil_of_mem_linesOf_feeds {feeds : List Char} (all : ∀ c ∈ feeds, c = '\n')
    (member : line ∈ linesOf feeds) : line = [] := by
  induction feeds with
  | nil => exact List.mem_singleton.mp member
  | cons c feeds ih =>
      obtain ⟨rfl, others⟩ := List.forall_mem_cons.mp all
      rcases List.mem_cons.mp member with none | later
      · exact none
      · exact ih others later

theorem sameLines_linesOf_trimLineFeeds (text : List Char) :
    SameLines (linesOf (trimLineFeeds text)) (linesOf text) := by
  intro line some
  obtain ⟨feeds, whole, all⟩ := Text.exists_dropEndWhile (· == '\n') text
  rw [← trimLineFeeds] at whole
  cases feeds with
  | nil =>
      rw [List.append_nil] at whole
      rw [whole]
  | cons c feeds =>
      obtain ⟨first, others⟩ := List.forall_mem_cons.mp all
      obtain rfl := beq_iff_eq.mp first
      have none : line ∉ linesOf feeds := fun member =>
        some (eq_nil_of_mem_linesOf_feeds (fun c member => beq_iff_eq.mp (others c member)) member)
      have split : linesOf text = linesOf (trimLineFeeds text) ++ linesOf feeds := by
        conv_lhs => rw [← whole]
        exact Text.splitWhere_append_cons (by decide)
      rw [split, List.mem_append, or_iff_left none]

/-- The code shown is flush left if the lines without a mark are. -/
theorem flushLeft_shown_iff (selected : List Char) :
    FlushLeft (linesOf (trimLineFeeds (Text.join ['\n'] (unmarked (linesOf selected))))) ↔
      FlushLeft (unmarked (linesOf selected)) := by
  have plain : ∀ line ∈ unmarked (linesOf selected), '\n' ∉ line := fun line member =>
    not_mem_of_mem_linesOf (mem_unmarked_iff.mp member).1
  rw [(sameLines_linesOf_trimLineFeeds _).flushLeft_iff, (sameLines_linesOf_join plain).flushLeft_iff]

/-- The carriage return that a line may lose with its line feed matters only to what depends on it. -/
theorem exists_mem_lines_join_iff {p : List Char → Prop} (sheds : ∀ line, p (line ++ ['\r']) ↔ p line)
    (none : ¬ p []) (plain : ∀ line ∈ lines, '\n' ∉ line) :
    (∃ line ∈ Text.lines (Text.join ['\n'] lines), p line) ↔ ∃ line ∈ lines, p line := by
  induction lines with
  | nil => simp [Text.join, Text.lines]
  | cons line lines ih =>
      obtain ⟨here, others⟩ := List.forall_mem_cons.mp plain
      have first : ∀ shown, line = shown ∨ line = shown ++ ['\r'] → (p shown ↔ p line) := by
        rintro shown (rfl | rfl)
        · rfl
        · exact (sheds shown).symm
      rw [List.exists_mem_cons_iff]
      cases lines with
      | nil =>
          rw [Text.join, List.intercalate_singleton]
          by_cases nonempty : line = []
          · simp [nonempty, none, Text.lines]
          · obtain ⟨shown, same, found⟩ :=
              Text.exists_firstLine (by simpa using nonempty) here (.inl rfl)
            rw [List.append_nil] at found
            rw [found, List.exists_mem_cons_iff, first shown same]
            simp [Text.lines]
      | cons next lines =>
          have feed : ['\n'] <+: '\n' :: Text.join ['\n'] (next :: lines) := ⟨_, rfl⟩
          obtain ⟨shown, same, found⟩ := Text.exists_firstLine (by simp) here (.inr feed)
          rw [join_cons_cons, found, List.exists_mem_cons_iff, first shown same]
          exact or_congr_right (ih others)

/-! ## Marks and indentation -/

theorem exists_foldedMarks : ∃ begins ends,
    beginMark.map Text.foldChar = '@' :: begins ∧ endMark.map Text.foldChar = '@' :: ends := by
  have sign : Text.foldChar '@' = '@' := (Text.foldChar_eq_iff (by decide)).mpr rfl
  exact ⟨_, _, congrArg (· :: _) sign, congrArg (· :: _) sign⟩

theorem IsMarkLine.sign_mem (marked : IsMarkLine line) : '@' ∈ line := by
  obtain ⟨begins, ends, begin', end'⟩ := exists_foldedMarks
  rw [← Text.mem_map_foldChar_iff (by decide)]
  rcases marked with marked | marked
  · exact marked.subset (begin' ▸ List.mem_cons_self)
  · exact marked.subset (end' ▸ List.mem_cons_self)

theorem IsMarkLine.visible (marked : IsMarkLine line) : Visible line := by
  refine Bool.eq_false_iff.mpr fun blank => ?_
  exact absurd (List.all_eq_true.mp blank _ marked.sign_mem) (by decide)

/-- No mark reaches into the text before the first sign. -/
theorem isMarkLine_append_iff {front : List Char} (absent : '@' ∉ front) :
    IsMarkLine (front ++ line) ↔ IsMarkLine line := by
  obtain ⟨begins, ends, begin', end'⟩ := exists_foldedMarks
  rw [← Text.mem_map_foldChar_iff (by decide)] at absent
  rw [IsMarkLine, IsMarkLine, Carries, Carries, Carries, Carries, begin', end', List.map_append,
    Text.infix_append_iff_of_head absent, Text.infix_append_iff_of_head absent]

theorem isMarkLine_dropIndent_iff : IsMarkLine (dropIndent width line) ↔ IsMarkLine line := by
  obtain ⟨front, whole, all⟩ := exists_dropIndent width line
  have absent : '@' ∉ front := fun member => absurd (all _ member) (by decide)
  conv_rhs => rw [whole]
  exact (isMarkLine_append_iff absent).symm

theorem isMarkLine_append_return_iff : IsMarkLine (line ++ ['\r']) ↔ IsMarkLine line := by
  have folded : Text.foldChar '\r' = '\r' := (Text.foldChar_eq_iff (by decide)).mpr rfl
  have same : ∀ mark : List Char, '\r' ∉ mark → mark ≠ [] →
      (Carries mark (line ++ ['\r']) ↔ Carries mark line) := by
    intro mark absent some
    rw [← Text.mem_map_foldChar_iff (by decide)] at absent
    rw [Carries, Carries, List.map_append, List.map_singleton, folded,
      Text.infix_append_cons_iff absent, List.infix_nil, List.map_eq_nil_iff, or_iff_left some]
  exact or_congr (same beginMark (by decide) (by decide)) (same endMark (by decide) (by decide))

theorem unmarked_stripLines (lines : List (List Char)) :
    unmarked (stripLines lines) = (unmarked lines).map (dropIndent (commonIndent lines)) := by
  have same : ((fun line => decide (¬ IsMarkLine line)) ∘ dropIndent (commonIndent lines)) =
      fun line => decide (¬ IsMarkLine line) :=
    funext fun line => decide_eq_decide.mpr (not_congr isMarkLine_dropIndent_iff)
  rw [unmarked, stripLines, List.filter_map, same, unmarked]

/-! ## The lines shown -/

theorem lineFeed_not_mem_of_mem_stripLines (plain : ∀ line ∈ lines, '\n' ∉ line)
    (member : line ∈ stripLines lines) : '\n' ∉ line := by
  obtain ⟨line, among, rfl⟩ := List.mem_map.mp member
  exact fun feed => plain line among (mem_of_mem_dropIndent feed)

theorem sameLines_linesOf_stripIndent (text : List Char) :
    SameLines (linesOf (stripIndent text)) (stripLines (Text.lines text)) :=
  sameLines_linesOf_join fun _ => lineFeed_not_mem_of_mem_stripLines fun _ =>
    Text.lineFeed_not_mem_of_mem_lines

/-- A line that loses all its indentation starts with no space and no tab. -/
theorem dropIndent_flush (within : indentWidth line ≤ width) :
    (dropIndent width line).head? ≠ some ' ' ∧ (dropIndent width line).head? ≠ some '\t' := by
  rw [← indentWidth_eq_zero_iff, indentWidth_dropIndent, Nat.sub_eq_zero_of_le within]

theorem flushLeft_stripLines (lines : List (List Char)) : FlushLeft (stripLines lines) := by
  rintro ⟨_, member, visible⟩
  obtain ⟨line, among, rfl⟩ := List.mem_map.mp member
  obtain ⟨⟨least, among, visible, same⟩, -⟩ :=
    isLeast_commonIndent ⟨line, among, visible_dropIndent_iff.mp visible⟩
  exact ⟨_, List.mem_map_of_mem among, visible_dropIndent_iff.mpr visible, dropIndent_flush same.le⟩

/-- What keeps the lines without a mark from the left border is a mark indented less. -/
theorem flushLeft_unmarked_stripLines_iff (lines : List (List Char)) :
    FlushLeft (unmarked (stripLines lines)) ↔ ¬ Outdents lines := by
  -- The least indented line without a mark reaches the border exactly if it is the least indented
  -- of all.
  rw [unmarked_stripLines]
  constructor
  · rintro flush ⟨⟨line, member, visible⟩, mark, among, marked, less⟩
    obtain ⟨_, dropped, visible, bare⟩ :=
      flush ⟨_, List.mem_map_of_mem member, visible_dropIndent_iff.mpr visible⟩
    obtain ⟨line, member, rfl⟩ := List.mem_map.mp dropped
    rw [← indentWidth_eq_zero_iff, indentWidth_dropIndent] at bare
    have shared : commonIndent lines ≤ indentWidth mark :=
      (isLeast_commonIndent ⟨mark, among, marked.visible⟩).2 ⟨mark, among, marked.visible, rfl⟩
    have := less line member (visible_dropIndent_iff.mp visible)
    omega
  · rintro flush ⟨_, dropped, visible⟩
    obtain ⟨line, member, rfl⟩ := List.mem_map.mp dropped
    have shown : ∃ line ∈ unmarked lines, Visible line :=
      ⟨line, member, visible_dropIndent_iff.mp visible⟩
    obtain ⟨⟨least, kept, visible, width⟩, below⟩ := isLeast_commonIndent shown
    refine ⟨_, List.mem_map_of_mem kept, visible_dropIndent_iff.mpr visible, dropIndent_flush ?_⟩
    have some : ∃ line ∈ lines, Visible line := ⟨least, (mem_unmarked_iff.mp kept).1, visible⟩
    obtain ⟨⟨first, among, visible', width'⟩, -⟩ := isLeast_commonIndent some
    rw [width, ← width']
    by_contra outdented
    by_cases marked : IsMarkLine first
    · refine flush ⟨shown, first, among, marked, fun line member visible => ?_⟩
      exact (Nat.lt_of_not_le outdented).trans_le (below ⟨line, member, visible, rfl⟩)
    · exact outdented (below ⟨first, mem_unmarked_iff.mpr ⟨among, marked⟩, visible', rfl⟩)

theorem outdents_iff : Outdents lines ↔ (∃ line ∈ lines, ¬ IsMarkLine line ∧ Visible line) ∧
    ∃ mark ∈ lines, IsMarkLine mark ∧ ¬ ∃ line ∈ lines, (¬ IsMarkLine line ∧ Visible line) ∧
      indentWidth line ≤ indentWidth mark := by
  have shown : (∃ line ∈ unmarked lines, Visible line) ↔
      ∃ line ∈ lines, ¬ IsMarkLine line ∧ Visible line := by
    simp only [mem_unmarked_iff, and_assoc]
  rw [← shown]
  constructor
  · rintro ⟨shown, mark, among, marked, less⟩
    refine ⟨shown, mark, among, marked, ?_⟩
    rintro ⟨line, member, ⟨unmarked, visible⟩, width⟩
    exact Nat.not_lt.mpr width (less line (mem_unmarked_iff.mpr ⟨member, unmarked⟩) visible)
  · rintro ⟨shown, mark, among, marked, none⟩
    refine ⟨shown, mark, among, marked, fun line member visible => Nat.lt_of_not_le fun width => ?_⟩
    obtain ⟨member, unmarked⟩ := mem_unmarked_iff.mp member
    exact none ⟨line, member, ⟨unmarked, visible⟩, width⟩

theorem outdents_lines_join_iff (plain : ∀ line ∈ lines, '\n' ∉ line) :
    Outdents (Text.lines (Text.join ['\n'] lines)) ↔ Outdents lines := by
  have shown : ∀ width, (∃ line ∈ Text.lines (Text.join ['\n'] lines),
      (¬ IsMarkLine line ∧ Visible line) ∧ indentWidth line ≤ width) ↔
        ∃ line ∈ lines, (¬ IsMarkLine line ∧ Visible line) ∧ indentWidth line ≤ width := by
    refine fun width => exists_mem_lines_join_iff (fun line => ?_) (fun none => ?_) plain
    · rw [isMarkLine_append_return_iff, visible_append_return_iff, indentWidth_append_return]
    · exact not_visible_nil none.1.2
  simp only [outdents_iff, shown]
  refine and_congr (exists_mem_lines_join_iff (fun line => ?_) (fun none => ?_) plain)
    (exists_mem_lines_join_iff (fun mark => ?_) (fun none => ?_) plain)
  · rw [isMarkLine_append_return_iff, visible_append_return_iff]
  · exact not_visible_nil none.2
  · rw [isMarkLine_append_return_iff, indentWidth_append_return]
  · exact not_visible_nil none.1.visible

theorem flushLeft_unmarked_stripIndent_iff (plain : ∀ line ∈ lines, '\n' ∉ line) :
    FlushLeft (unmarked (linesOf (stripIndent (Text.join ['\n'] lines)))) ↔ ¬ Outdents lines := by
  rw [(sameLines_linesOf_stripIndent _).unmarked.flushLeft_iff, flushLeft_unmarked_stripLines_iff,
    outdents_lines_join_iff plain]

/-! ## The lines selected -/

variable {directive : Directive} {content selected : List Char}

/-- The lines of a range or a block are selected without the indentation that they share. -/
theorem exists_selects (selects : directive.select content = .ok selected) :
    ∃ lines, Selects directive content lines ∧ (∀ line ∈ lines, '\n' ∉ line) ∧
      selected = if directive.mode = .range ∨ directive.mode = .block
        then stripIndent (Text.join ['\n'] lines) else Text.join ['\n'] lines := by
  rw [Directive.select] at selects
  cases mode : directive.mode with
  | range =>
      have extracts := extractsRange_extractRange content (directive.reference.getD [])
      simp only [mode] at selects
      rw [selects] at extracts
      obtain ⟨among⟩ := extracts
      refine ⟨_, .range mode among, ?_, (if_pos (.inl rfl)).symm⟩
      obtain ⟨-, split, -, -⟩ := among
      intro line member
      have among : line ∈ Text.lines content := by simp [split, member]
      exact Text.lineFeed_not_mem_of_mem_lines among
  | block =>
      have extracts := extracts_extractBlock content (directive.reference.getD [])
      simp only [mode] at selects
      rw [selects] at extracts
      obtain ⟨-, split, unbegun, begins, unended, ends⟩ := extracts
      refine ⟨_, .block mode split unbegun begins unended ends, ?_, (if_pos (.inr rfl)).symm⟩
      intro line member
      have among : line ∈ linesOf content := by simp [split, member]
      exact not_mem_of_mem_linesOf among
  | inline =>
      simp only [mode, Except.ok.injEq] at selects
      refine ⟨_, .whole (.inl mode), fun line => not_mem_of_mem_linesOf, ?_⟩
      rw [if_neg (by simp), join_linesOf, selects]
  | wholeFile =>
      simp only [mode, Except.ok.injEq] at selects
      refine ⟨_, .whole (.inr mode), fun line => not_mem_of_mem_linesOf, ?_⟩
      rw [if_neg (by simp), join_linesOf, selects]

variable {engine : Engine} {file body code : List Char}

theorem Engine.exists_select_of_resolve (named : directive.file = some file)
    (resolved : engine.resolve directive body = .ok code) : ∃ content selected,
      engine.readCode file = .ok content ∧ directive.select content = .ok selected := by
  rw [resolve, named] at resolved
  cases read : engine.readCode file with
  | error error =>
      simp only [read, bind, Except.bind] at resolved
      cases resolved
  | ok content =>
      cases selects : directive.select content with
      | error error =>
          simp only [read, selects, bind, Except.bind] at resolved
          cases resolved
      | ok selected => exact ⟨content, selected, rfl, selects⟩

/-- The code that a snippet brings along is flush left. A range or a block of a file is so exactly
if none of its lines with a mark is indented less than all the lines shown that are not blank. The
whole file is shown as it is indented. -/
theorem Engine.resolve_flushLeft_iff (resolved : engine.resolve directive body = .ok code) :
    (directive.file = none → FlushLeft (linesOf code)) ∧
    ∀ file, directive.file = some file → ∃ content lines, engine.readCode file = .ok content ∧
      Selects directive content lines ∧
      (directive.mode = .range ∨ directive.mode = .block →
        (FlushLeft (linesOf code) ↔ ¬ Outdents lines)) ∧
      (directive.mode = .inline → (FlushLeft (linesOf code) ↔ FlushLeft (unmarked lines))) := by
  constructor
  · intro none
    rw [resolve, none] at resolved
    obtain rfl := Except.ok.inj resolved
    rw [(sameLines_linesOf_trimLineFeeds _).flushLeft_iff,
      (sameLines_linesOf_stripIndent body).flushLeft_iff]
    exact flushLeft_stripLines _
  · intro file named
    obtain ⟨content, selected, read, select⟩ := exists_select_of_resolve named resolved
    obtain ⟨lines, selects, plain, same⟩ := exists_selects select
    rw [resolve_of_select named read select] at resolved
    obtain rfl := Except.ok.inj resolved
    refine ⟨content, lines, read, selects, fun part => ?_, fun mode => ?_⟩
    · rw [if_pos part] at same
      rw [flushLeft_shown_iff, same, flushLeft_unmarked_stripIndent_iff plain]
    · rw [if_neg (by simp [mode])] at same
      rw [flushLeft_shown_iff, same, (sameLines_linesOf_join plain).unmarked.flushLeft_iff]

end

theorem Engine.resolve_flushLeft_nested :
    nestedEngine.resolve (Directive.parse "c a.c:2,7".toList) [] = .ok "x\n  y".toList ∧
      ∃ content lines, nestedEngine.readCode "a.c".toList = .ok content ∧
        Selects (Directive.parse "c a.c:2,7".toList) content lines ∧ ¬ Outdents lines := by
  have read : Directive.parse "c a.c:2,7".toList =
      ⟨some "c".toList, some "a.c".toList, .range, some "2,7".toList⟩ := by
    decide +kernel
  have resolved : nestedEngine.resolve (Directive.parse "c a.c:2,7".toList) [] =
      .ok "x\n  y".toList := by
    rw [read]
    decide +kernel
  have flush : FlushLeft (linesOf "x\n  y".toList) := by decide
  obtain ⟨content, lines, found, selects, part, -⟩ :=
    (resolve_flushLeft_iff resolved).2 "a.c".toList (by rw [read])
  exact ⟨resolved, content, lines, found, selects, (part (.inl (by rw [read]))).mp flush⟩

/-- A mark at the left border keeps the code of a range from it. -/
theorem Engine.resolve_range_outdented :
    let engine : Engine :=
      ⟨"code", fun _ => .ok "# @begin:a\n    x\n# @end:a\n", plainHighlighter⟩
    (Directive.parse "ruby app.rb:1,3".toList).mode = .range ∧
      engine.resolve (Directive.parse "ruby app.rb:1,3".toList) [] = .ok "    x".toList ∧
      ¬ FlushLeft (linesOf "    x".toList) := by
  refine ⟨by decide +kernel, by decide +kernel, by decide⟩

end Bindery.Snippet
