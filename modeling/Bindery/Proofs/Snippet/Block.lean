import Bindery.Proofs.Snippet.Directive
import Bindery.Proofs.Text.CaseFold
import Bindery.Proofs.Text.Mark
import Bindery.Proofs.Text.Pattern
import Bindery.Snippet.Extract

/-!
# Blocks line by line

A block is found by one pattern for the whole text. Its marks are read within a line, and
so the pattern finds what a reader finds who goes through the lines: the lines between the
first one that begins the block and the first one behind it that ends it.
-/

set_option autoImplicit false

namespace Bindery.Snippet

/-! ## Lines with a mark -/

/-- The text starts with the mark and, behind spaces or none, the name as a whole word. -/
inductive StartsWithMark (mark name behind : List Char) : List Char → Prop where
  | intro {sign spaces word : List Char} (marked : Text.SameInAnyCase sign mark)
      (blank : ∀ c ∈ spaces, c = ' ') (named : Text.SameInAnyCase word name)
      (whole : behind.head?.any Text.isWordChar = false) :
      StartsWithMark mark name behind (sign ++ (spaces ++ (word ++ behind)))

/-- The mark stands somewhere in the line, with the name behind it. -/
def HasMark (mark name line : List Char) : Prop :=
  ∃ before here behind, line = before ++ here ∧ StartsWithMark mark name behind here

def Begins (name line : List Char) : Prop := HasMark beginMark name line

def Ends (name line : List Char) : Prop := HasMark endMark name line

/-- Some word characters. -/
structure IsName (name : List Char) : Prop where
  some : name ≠ []
  word : ∀ c ∈ name, Text.isWordChar c = true

/-- Some line begins a block of the name, and a later one ends it. -/
def HasBlock (name : List Char) (lines : List (List Char)) : Prop :=
  ∃ above line below, lines = above ++ line :: below ∧ Begins name line ∧
    ∃ last ∈ below, Ends name last

/-- What is extracted as the block of a name from the lines of a text: the lines between the first
one that begins it and the first one behind it that ends it. -/
inductive Extracts (name : List Char) (lines : List (List Char)) :
    Except SnippetError (List Char) → Prop where
  | block {above below between : List (List Char)} {first last : List Char} (named : IsName name)
      (split : lines = above ++ first :: (between ++ last :: below))
      (unbegun : ∀ line ∈ above, ¬ Begins name line) (begins : Begins name first)
      (unended : ∀ line ∈ between, ¬ Ends name line) (ends : Ends name last) :
      Extracts name lines (.ok (stripIndent (Text.join ['\n'] between)))
  | missing (none : ¬ (IsName name ∧ HasBlock name lines)) :
      Extracts name lines (.error (.missingBlock (String.ofList name)))

section

variable {α : Type} {next : Text.Matcher α} {mark name text line behind after rest tail : List Char}
  {before : Option Char} {found : α}

theorem isBlockName_iff : isBlockName name = true ↔ IsName name := by
  rw [isBlockName, Bool.and_eq_true, Bool.not_eq_true', List.isEmpty_eq_false_iff, List.all_eq_true]
  exact ⟨fun both => ⟨both.1, both.2⟩, fun named => ⟨named.some, named.word⟩⟩

/-! ## The pattern of a mark -/

theorem isWordChar_of_sameInAnyCase {word : List Char} (same : Text.SameInAnyCase word name)
    (named : IsName name) : ∀ c ∈ word, Text.isWordChar c = true := by
  intro c member
  have folded : Text.foldChar c ∈ name.map Text.foldChar := same ▸ List.mem_map_of_mem member
  obtain ⟨d, among, fold⟩ := List.mem_map.mp folded
  rw [← Text.isWordChar_foldChar, ← fold, Text.isWordChar_foldChar]
  exact named.word d among

/-- Behind a name that is there, the border of a word is where no word character follows. -/
theorem wordBorder_of_word {word : List Char} (same : Text.SameInAnyCase word name)
    (named : IsName name) (before : Option Char) (behind : List Char) :
    Text.wordBorder next (Text.lastOf before word) behind =
      if behind.head?.any Text.isWordChar then none
      else next (Text.lastOf before word) behind := by
  have some : word ≠ [] := by
    rintro rfl
    exact named.some (List.map_eq_nil_iff.mp same.symm)
  have border : (Text.lastOf before word).any Text.isWordChar = true := by
    cases ends : word.getLast? with
    | none => exact absurd (List.getLast?_eq_none_iff.mp ends) some
    | some last =>
        rw [Text.lastOf, ends]
        exact isWordChar_of_sameInAnyCase same named last (List.mem_of_getLast? ends)
  rw [Text.wordBorder, border]
  cases behind.head?.any Text.isWordChar <;> rfl

theorem inAnyCase_name_of_space (named : IsName name) (rest : List Char) :
    Text.inAnyCase name next before (' ' :: rest) = none := by
  cases read : Text.inAnyCase name next before (' ' :: rest) with
  | none => rfl
  | some found =>
      obtain ⟨taken, behind, whole, same, -⟩ := Text.exists_of_inAnyCase read
      cases taken with
      | nil => exact absurd (List.map_eq_nil_iff.mp same.symm) named.some
      | cons c taken =>
          obtain ⟨rfl, -⟩ := List.cons.inj whole
          have wordy := isWordChar_of_sameInAnyCase same named ' ' List.mem_cons_self
          exact absurd wordy (by decide)

/-- A mark with the name behind it is read in one way only. -/
theorem StartsWithMark.markWith_eq (starts : StartsWithMark mark name behind text)
    (named : IsName name) (next : Text.Matcher α) (before : Option Char) :
    ∃ last, markWith mark name next before text = next last behind := by
  obtain ⟨marked, blank, same, whole⟩ := starts
  rename_i sign spaces word
  refine ⟨Text.lastOf (Text.lastOf (Text.lastOf before sign) spaces) word, ?_⟩
  have stops : ∀ c ∈ (word ++ behind).head?, (c == ' ') = false := by
    intro c head
    have some : word ≠ [] := by
      rintro rfl
      exact named.some (List.map_eq_nil_iff.mp same.symm)
    rw [List.head?_append_of_ne_nil word some] at head
    have wordy := isWordChar_of_sameInAnyCase same named c (List.mem_of_mem_head? head)
    refine beq_eq_false_iff_ne.mpr ?_
    rintro rfl
    exact absurd wordy (by decide)
  rw [markWith, Text.inAnyCase_append marked, Text.manyOf_append ?_ stops ?_,
    Text.inAnyCase_append same, wordBorder_of_word same named, whole]
  · rfl
  · exact fun c member => beq_iff_eq.mpr (blank c member)
  · intro before c rest space
    obtain rfl := beq_iff_eq.mp space
    exact inAnyCase_name_of_space named rest

theorem exists_of_markWith (named : IsName name)
    (read : markWith mark name next before text = some found) :
    ∃ behind last, StartsWithMark mark name behind text ∧ next last behind = some found := by
  obtain ⟨sign, rest, rfl, marked, read⟩ := Text.exists_of_inAnyCase read
  obtain ⟨spaces, rest, rfl, blank, read⟩ := Text.exists_of_manyOf read
  obtain ⟨word, behind, rfl, same, read⟩ := Text.exists_of_inAnyCase read
  rw [wordBorder_of_word same named] at read
  split at read
  · cases read
  · next whole =>
      exact ⟨behind, _, .intro marked (fun c member => beq_iff_eq.mp (blank c member)) same
        (by simpa using whole), read⟩

/-! ## Marks within a line -/

/-- No character of a mark folds to a line feed. -/
def OneLine (mark : List Char) : Prop := '\n' ∉ mark.map Text.foldChar

theorem oneLine_beginMark : OneLine beginMark := by
  rw [OneLine, Text.mem_map_foldChar_iff (by decide)]
  decide

theorem oneLine_endMark : OneLine endMark := by
  rw [OneLine, Text.mem_map_foldChar_iff (by decide)]
  decide

theorem not_mem_of_sameInAnyCase {sign : List Char} (same : Text.SameInAnyCase sign mark)
    (oneLine : OneLine mark) : '\n' ∉ sign := by
  intro member
  have folded : '\n' ∈ sign.map Text.foldChar :=
    (Text.mem_map_foldChar_iff (by decide)).mpr member
  exact oneLine (same ▸ folded)

/-- A line ends before the text. -/
def EndsLine (tail : List Char) : Prop := ∀ c ∈ tail.head?, c = '\n'

theorem prefix_of_endsLine {front : List Char} (ended : EndsLine tail) (plain : '\n' ∉ front)
    (starts : front <+: text ++ tail) : front <+: text := by
  cases tail with
  | nil => rwa [List.append_nil] at starts
  | cons c tail =>
      obtain rfl := ended c rfl
      exact Text.prefix_of_prefix_append_cons plain starts

/-- A mark and the name behind it stand on one line, whatever follows that line. -/
theorem startsWithMark_append_iff (oneLine : OneLine mark) (named : IsName name)
    (ended : EndsLine tail) : StartsWithMark mark name after (text ++ tail) ↔
      ∃ behind, after = behind ++ tail ∧ StartsWithMark mark name behind text := by
  constructor
  · intro starts
    generalize same : text ++ tail = whole at starts
    obtain ⟨marked, blank, word', bounded⟩ := starts
    rename_i sign spaces word
    have plain : '\n' ∉ sign ++ (spaces ++ word) := by
      refine List.not_mem_append (not_mem_of_sameInAnyCase marked oneLine)
        (List.not_mem_append (fun member => ?_) fun member => ?_)
      · exact absurd (blank _ member) (by decide)
      · exact absurd (isWordChar_of_sameInAnyCase word' named _ member) (by decide)
    have parts : sign ++ (spaces ++ (word ++ after)) = (sign ++ (spaces ++ word)) ++ after := by
      simp only [List.append_assoc]
    rw [parts] at same
    obtain ⟨behind, rfl⟩ := prefix_of_endsLine ended plain (same ▸ List.prefix_append _ after)
    rw [List.append_assoc, List.append_cancel_left_eq] at same
    refine ⟨behind, same.symm, ?_⟩
    have whole : (sign ++ (spaces ++ word)) ++ behind = sign ++ (spaces ++ (word ++ behind)) := by
      simp only [List.append_assoc]
    rw [whole]
    refine .intro marked blank word' ?_
    subst same
    cases behind with
    | nil => rfl
    | cons c behind => exact bounded
  · rintro ⟨behind, rfl, marked, blank, word', bounded⟩
    simp only [List.append_assoc]
    refine .intro marked blank word' ?_
    cases behind with
    | nil =>
        cases tail with
        | nil => rfl
        | cons c tail =>
            obtain rfl := ended c rfl
            exact (by decide : Text.isWordChar '\n' = false)
    | cons c behind => exact bounded

theorem HasMark.of_suffix {here : List Char} (marked : HasMark mark name here)
    (suffix : here <:+ line) : HasMark mark name line := by
  obtain ⟨front, rfl⟩ := suffix
  obtain ⟨before, start, behind, rfl, starts⟩ := marked
  exact ⟨front ++ before, start, behind, (List.append_assoc _ _ _).symm, starts⟩

theorem not_hasMark_nil (named : IsName name) : ¬ HasMark mark name [] := by
  rintro ⟨front, here, behind, same, starts⟩
  obtain ⟨-, rfl⟩ := List.append_eq_nil_iff.mp same.symm
  generalize empty : ([] : List Char) = whole at starts
  obtain ⟨-, -, word', -⟩ := starts
  rename_i sign spaces word
  have none : word = [] := by
    have parts := List.append_eq_nil_iff.mp empty.symm
    exact (List.append_eq_nil_iff.mp (List.append_eq_nil_iff.mp parts.2).2).1
  subst none
  exact named.some (List.map_eq_nil_iff.mp word'.symm)

/-! ## The end of a block -/

/-- From a place in a line that has the mark the text so far is taken. -/
theorem endPattern_eq_some_iff {taken found : List Char} (named : IsName name)
    (plain : '\n' ∉ line) (ended : EndsLine tail) :
    endPattern name taken before (line ++ tail) = some found ↔
      found = taken.reverse ∧ Ends name line := by
  have sound : ∀ found, endPattern name taken before (line ++ tail) = some found →
      found = taken.reverse ∧ Ends name line := by
    intro found read
    obtain ⟨front, here, same, within, read⟩ := Text.exists_of_manyOf read
    obtain ⟨after, last, starts, given⟩ := exists_of_markWith named read
    have front' : '\n' ∉ front := fun member => by simpa using within _ member
    obtain ⟨middle, rfl⟩ := prefix_of_endsLine ended front' (same ▸ List.prefix_append front here)
    rw [List.append_assoc, List.append_cancel_left_eq] at same
    subst same
    obtain ⟨behind, -, inside⟩ := (startsWithMark_append_iff oneLine_endMark named ended).mp starts
    exact ⟨(Option.some.inj given).symm, front, middle, behind, rfl, inside⟩
  refine ⟨sound found, ?_⟩
  rintro ⟨rfl, front, here, behind, rfl, starts⟩
  have longer : StartsWithMark endMark name (behind ++ tail) (here ++ tail) :=
    (startsWithMark_append_iff oneLine_endMark named ended).mpr ⟨behind, rfl, starts⟩
  have within : ∀ c ∈ front, (c != '\n') = true := by
    intro c member
    refine bne_iff_ne.mpr ?_
    rintro rfl
    exact plain (List.mem_append_left _ member)
  have fits : (endPattern name taken before (front ++ (here ++ tail))).isSome = true := by
    refine Text.isSome_manyOf within ?_
    obtain ⟨last, read⟩ := longer.markWith_eq named (fun _ _ => some taken.reverse)
      (Text.lastOf before front)
    rw [read]
    rfl
  obtain ⟨found, read⟩ := Option.isSome_iff_exists.mp fits
  rw [← List.append_assoc] at read
  rw [read, (sound found read).1]

/-- A line without the mark belongs to the block. -/
theorem fewOf_endPattern_line {taken : List Char} (named : IsName name) (plain : '\n' ∉ line)
    (unended : ¬ Ends name line) (rest : List Char) :
    Text.fewOf (endPattern name) taken before (line ++ '\n' :: rest) =
      Text.fewOf (endPattern name) ('\n' :: (line.reverse ++ taken)) (some '\n') rest := by
  have whole : line ++ '\n' :: rest = (line ++ ['\n']) ++ rest := by simp
  rw [whole, Text.fewOf_append]
  · simp [Text.lastOf]
  · intro here suffix some taken before
    obtain ⟨inside, rfl, within⟩ := (List.suffix_concat_iff.mp suffix).resolve_left some
    rw [List.append_assoc, List.singleton_append, Option.eq_none_iff_forall_ne_some]
    intro found read
    have plain' : '\n' ∉ inside := fun member => plain (within.subset member)
    have ends := ((endPattern_eq_some_iff named plain' (by simp [EndsLine])).mp read).2
    exact unended (ends.of_suffix within)

theorem fewOf_endPattern_last {taken : List Char} (named : IsName name) (plain : '\n' ∉ line)
    (unended : ¬ Ends name line) : Text.fewOf (endPattern name) taken before line = none := by
  refine Text.fewOf_eq_none (fun here suffix taken before => ?_) taken before
  rw [Option.eq_none_iff_forall_ne_some]
  intro found read
  have plain' : '\n' ∉ here := fun member => plain (suffix.subset member)
  have ended : EndsLine [] := nofun
  rw [← List.append_nil here] at read
  exact unended (((endPattern_eq_some_iff named plain' ended).mp read).2.of_suffix suffix)

/-! ## The lines of a text -/

theorem join_cons_cons (line next : List Char) (lines : List (List Char)) :
    Text.join ['\n'] (line :: next :: lines) =
      line ++ '\n' :: Text.join ['\n'] (next :: lines) := by
  rw [Text.join, Text.join, List.intercalate_cons_cons, List.append_assoc, List.singleton_append]

/-- A line of a text and what follows it. -/
theorem exists_join_cons (line : List Char) (lines : List (List Char)) :
    ∃ tail, EndsLine tail ∧ Text.join ['\n'] (line :: lines) = line ++ tail := by
  cases lines with
  | nil => exact ⟨[], nofun, by rw [Text.join, List.intercalate_singleton, List.append_nil]⟩
  | cons next lines => exact ⟨_, by simp [EndsLine], join_cons_cons line next lines⟩

/-- The lines of a text, split at its line feeds. -/
def linesOf (content : List Char) : List (List Char) := Text.splitWhere (· == '\n') content

theorem join_linesOf (content : List Char) : Text.join ['\n'] (linesOf content) = content := by
  unfold linesOf
  induction content with
  | nil => rfl
  | cons c rest ih =>
      obtain ⟨line, lines, split⟩ : ∃ line lines,
          Text.splitWhere (· == '\n') rest = line :: lines :=
        List.exists_cons_of_ne_nil (Text.splitWhere_ne_nil rest)
      rw [split] at ih
      rw [Text.splitWhere, split]
      split
      · next feed =>
          obtain rfl := beq_iff_eq.mp feed
          rw [join_cons_cons, ih]
          rfl
      · dsimp only
        rw [← ih]
        cases lines with
        | nil => rw [Text.join, Text.join, List.intercalate_singleton, List.intercalate_singleton]
        | cons next lines => rw [join_cons_cons, join_cons_cons, List.cons_append]

theorem linesOf_join {lines : List (List Char)} (some : lines ≠ [])
    (plain : ∀ line ∈ lines, '\n' ∉ line) : linesOf (Text.join ['\n'] lines) = lines := by
  induction lines with
  | nil => exact absurd rfl some
  | cons line lines ih =>
      obtain ⟨here, others⟩ := List.forall_mem_cons.mp plain
      have alone : Text.splitWhere (· == '\n') line = [line] :=
        Text.splitWhere_eq_singleton fun c member =>
          beq_eq_false_iff_ne.mpr fun same => here (same ▸ member)
      cases lines with
      | nil => rw [Text.join, List.intercalate_singleton, linesOf, alone]
      | cons next lines =>
          rw [join_cons_cons, linesOf, Text.splitWhere_append_cons (by decide), alone, ← linesOf,
            ih (List.cons_ne_nil next lines) others, List.singleton_append]

theorem not_mem_of_mem_linesOf {content : List Char} (among : line ∈ linesOf content) :
    '\n' ∉ line := by
  intro member
  exact absurd (Text.separates_of_mem_splitWhere among _ member) (by decide)

/-- The text of some whole lines. -/
def wholeLines (lines : List (List Char)) : List Char := lines.flatMap (· ++ ['\n'])

theorem dropLineFeed_wholeLines (lines : List (List Char)) :
    dropLineFeed (wholeLines lines) = Text.join ['\n'] lines := by
  have joined : ∀ line lines, wholeLines (line :: lines) =
      Text.join ['\n'] (line :: lines) ++ ['\n'] := by
    intro line lines
    induction lines generalizing line with
    | nil => simp [wholeLines, Text.join]
    | cons next lines ih =>
        rw [wholeLines, List.flatMap_cons, ← wholeLines, ih next, join_cons_cons]
        simp
  cases lines with
  | nil => rfl
  | cons line lines =>
      rw [joined, dropLineFeed, if_pos List.getLast?_concat, List.dropLast_concat]

/-! ## The end of a block, line by line -/

variable {lines above between below : List (List Char)} {first last : List Char}

theorem fewOf_endPattern_lines (named : IsName name) (plain : ∀ line ∈ between, '\n' ∉ line)
    (last' : '\n' ∉ last) (unended : ∀ line ∈ between, ¬ Ends name line) (ends : Ends name last)
    (taken : List Char) (before : Option Char) :
    Text.fewOf (endPattern name) taken before (Text.join ['\n'] (between ++ last :: below)) =
      some (taken.reverse ++ wholeLines between) := by
  induction between generalizing taken before with
  | nil =>
      obtain ⟨tail, ended, whole⟩ := exists_join_cons last below
      rw [List.nil_append, whole]
      refine Text.fewOf_here ((endPattern_eq_some_iff named last' ended).mpr ⟨?_, ends⟩)
      exact List.append_nil _
  | cons line between ih =>
      obtain ⟨here, others⟩ := List.forall_mem_cons.mp plain
      obtain ⟨kept, unended⟩ := List.forall_mem_cons.mp unended
      obtain ⟨next, lines, split⟩ : ∃ next lines, between ++ last :: below = next :: lines :=
        List.exists_cons_of_ne_nil (by simp)
      rw [List.cons_append, split, join_cons_cons, fewOf_endPattern_line named here kept, ← split,
        ih others unended]
      simp [wholeLines]

theorem fewOf_endPattern_none (named : IsName name) (plain : ∀ line ∈ lines, '\n' ∉ line)
    (unended : ∀ line ∈ lines, ¬ Ends name line) (taken : List Char) (before : Option Char) :
    Text.fewOf (endPattern name) taken before (Text.join ['\n'] lines) = none := by
  induction lines generalizing taken before with
  | nil =>
      exact fewOf_endPattern_last named List.not_mem_nil (not_hasMark_nil named)
  | cons line lines ih =>
      obtain ⟨here, others⟩ := List.forall_mem_cons.mp plain
      obtain ⟨kept, unended⟩ := List.forall_mem_cons.mp unended
      cases lines with
      | nil =>
          rw [Text.join, List.intercalate_singleton]
          exact fewOf_endPattern_last named here kept
      | cons next lines =>
          rw [join_cons_cons, fewOf_endPattern_line named here kept]
          exact ih others unended _ _

/-! ## The beginning of a block -/

theorem blockPattern_eq_some_iff {found : List Char} (named : IsName name) (plain : '\n' ∉ line) :
    blockPattern name before (line ++ '\n' :: rest) = some found ↔
      (∃ behind, StartsWithMark beginMark name behind line) ∧
        Text.fewOf (endPattern name) [] (some '\n') rest = some found := by
  have ended : EndsLine ('\n' :: rest) := by simp [EndsLine]
  -- The rest of the line is taken as a whole.
  have onward : ∀ {last : Option Char} {behind : List Char}, '\n' ∉ behind →
      restOfLine (Text.fewOf (endPattern name) []) last (behind ++ '\n' :: rest) =
        Text.fewOf (endPattern name) [] (some '\n') rest := by
    intro last behind plain
    rw [restOfLine, Text.manyOf_append]
    · rfl
    · intro c member
      exact bne_iff_ne.mpr fun same => plain (same ▸ member)
    · simp
    · intro before c rest other
      rw [Text.one, if_neg (by simpa using other)]
  have within : ∀ {behind : List Char}, StartsWithMark beginMark name behind line →
      '\n' ∉ behind := by
    rintro behind ⟨-, -, -, -⟩ member
    exact plain (by simp [member])
  constructor
  · intro read
    obtain ⟨after, last, starts, found'⟩ := exists_of_markWith named read
    obtain ⟨behind, rfl, inside⟩ :=
      (startsWithMark_append_iff oneLine_beginMark named ended).mp starts
    rw [onward (within inside)] at found'
    exact ⟨⟨behind, inside⟩, found'⟩
  · rintro ⟨⟨behind, starts⟩, later⟩
    have longer : StartsWithMark beginMark name (behind ++ '\n' :: rest) (line ++ '\n' :: rest) :=
      (startsWithMark_append_iff oneLine_beginMark named ended).mpr ⟨behind, rfl, starts⟩
    obtain ⟨last, read⟩ :=
      longer.markWith_eq named (restOfLine (Text.fewOf (endPattern name) [])) before
    rw [blockPattern, read, onward (within starts), later]

/-- A block does not begin on the last line. -/
theorem blockPattern_last (named : IsName name) (plain : '\n' ∉ line) (before : Option Char) :
    blockPattern name before line = none := by
  rw [Option.eq_none_iff_forall_ne_some]
  intro found read
  obtain ⟨after, last, starts, read⟩ := exists_of_markWith named read
  obtain ⟨taken, rest, rfl, -, read⟩ := Text.exists_of_manyOf read
  have feed : '\n' ∈ rest := by
    cases rest with
    | nil => cases read
    | cons c rest =>
        rw [Text.one] at read
        split at read
        · next feed => exact beq_iff_eq.mp feed ▸ List.mem_cons_self
        · cases read
  obtain ⟨-, -, -, -⟩ := starts
  exact plain (by simp [feed])

/-- A line that begins no block, or none that is ended, is passed over. -/
theorem firstMatch_blockPattern_line (named : IsName name) (plain : '\n' ∉ line)
    (unfit : Begins name line → Text.fewOf (endPattern name) [] (some '\n') rest = none)
    (before : Option Char) :
    Text.firstMatch (blockPattern name) before (line ++ '\n' :: rest) =
      Text.firstMatch (blockPattern name) (some '\n') rest := by
  have whole : line ++ '\n' :: rest = (line ++ ['\n']) ++ rest := by simp
  rw [whole, Text.firstMatch_append]
  · simp [Text.lastOf]
  · intro here suffix some before
    obtain ⟨inside, rfl, within⟩ := (List.suffix_concat_iff.mp suffix).resolve_left some
    rw [List.append_assoc, List.singleton_append, Option.eq_none_iff_forall_ne_some]
    intro found read
    have plain' : '\n' ∉ inside := fun member => plain (within.subset member)
    obtain ⟨⟨behind, starts⟩, later⟩ := (blockPattern_eq_some_iff named plain').mp read
    have begins : HasMark beginMark name inside := ⟨[], inside, behind, rfl, starts⟩
    rw [unfit (begins.of_suffix within)] at later
    cases later

/-- The block begins on the first line with the mark. -/
theorem firstMatch_blockPattern_begins {found : List Char} (named : IsName name)
    (plain : '\n' ∉ line) (begins : Begins name line)
    (later : Text.fewOf (endPattern name) [] (some '\n') rest = some found)
    (before : Option Char) :
    Text.firstMatch (blockPattern name) before (line ++ '\n' :: rest) = some found := by
  induction line generalizing before with
  | nil => exact absurd begins (not_hasMark_nil named)
  | cons c line ih =>
      rw [List.cons_append, Text.firstMatch]
      have plain' : '\n' ∉ c :: line := plain
      cases here : blockPattern name before (c :: (line ++ '\n' :: rest)) with
      | some other =>
          rw [← List.cons_append] at here
          have same := ((blockPattern_eq_some_iff named plain').mp here).2
          exact same.symm.trans later
      | none =>
          rw [List.mem_cons, not_or] at plain
          refine ih plain.2 ?_ _
          obtain ⟨front, start, behind, whole, starts⟩ := begins
          cases front with
          | nil =>
              rw [List.nil_append] at whole
              subst whole
              have read : blockPattern name before (c :: line ++ '\n' :: rest) = some found :=
                (blockPattern_eq_some_iff named plain').mpr ⟨⟨behind, starts⟩, later⟩
              rw [List.cons_append, here] at read
              cases read
          | cons d front =>
              exact ⟨front, start, behind, (List.cons.inj whole).2, starts⟩

theorem firstMatch_blockPattern_lines (named : IsName name) (plain : ∀ line ∈ above, '\n' ∉ line)
    (unbegun : ∀ line ∈ above, ¬ Begins name line) (first' : '\n' ∉ first)
    (begins : Begins name first) (between' : ∀ line ∈ between, '\n' ∉ line) (last' : '\n' ∉ last)
    (unended : ∀ line ∈ between, ¬ Ends name line) (ends : Ends name last) (before : Option Char) :
    Text.firstMatch (blockPattern name) before
        (Text.join ['\n'] (above ++ first :: (between ++ last :: below))) =
      some (wholeLines between) := by
  induction above generalizing before with
  | nil =>
      obtain ⟨next, lines, split⟩ : ∃ next lines, between ++ last :: below = next :: lines :=
        List.exists_cons_of_ne_nil (by simp)
      have later : Text.fewOf (endPattern name) [] (some '\n')
          (Text.join ['\n'] (between ++ last :: below)) = some (wholeLines between) :=
        fewOf_endPattern_lines named between' last' unended ends [] _
      rw [split] at later
      rw [List.nil_append, split, join_cons_cons]
      exact firstMatch_blockPattern_begins named first' begins later before
  | cons line above ih =>
      obtain ⟨here, others⟩ := List.forall_mem_cons.mp plain
      obtain ⟨passed, unbegun⟩ := List.forall_mem_cons.mp unbegun
      obtain ⟨next, lines, split⟩ : ∃ next lines,
          above ++ first :: (between ++ last :: below) = next :: lines :=
        List.exists_cons_of_ne_nil (by simp)
      rw [List.cons_append, split, join_cons_cons,
        firstMatch_blockPattern_line named here fun begins => absurd begins passed, ← split]
      exact ih others unbegun _

theorem firstMatch_blockPattern_none (named : IsName name) (plain : ∀ line ∈ lines, '\n' ∉ line)
    (none : ¬ HasBlock name lines) (before : Option Char) :
    Text.firstMatch (blockPattern name) before (Text.join ['\n'] lines) = .none := by
  induction lines generalizing before with
  | nil => exact blockPattern_last named List.not_mem_nil before
  | cons line lines ih =>
      obtain ⟨here, others⟩ := List.forall_mem_cons.mp plain
      cases lines with
      | nil =>
          rw [Text.join, List.intercalate_singleton]
          refine Text.firstMatch_eq_none (fun start suffix before => ?_) before
          exact blockPattern_last named (fun member => here (suffix.subset member)) before
      | cons next lines =>
          have later : ¬ HasBlock name (next :: lines) := by
            rintro ⟨above, first, below, split, block⟩
            exact none ⟨line :: above, first, below, by rw [split, List.cons_append], block⟩
          rw [join_cons_cons, firstMatch_blockPattern_line named here]
          · exact ih others later _
          · intro begins
            refine fewOf_endPattern_none named others (fun last among ends => none ?_) _ _
            exact ⟨[], line, next :: lines, rfl, begins, last, among, ends⟩

/-! ## The block -/

/-- The first item with a property. -/
theorem exists_first {α : Type} {property : α → Prop} {items : List α}
    (some : ∃ item ∈ items, property item) : ∃ before item behind,
      items = before ++ item :: behind ∧ (∀ other ∈ before, ¬ property other) ∧ property item := by
  induction items with
  | nil => simp at some
  | cons item items ih =>
      by_cases here : property item
      · exact ⟨[], item, items, rfl, nofun, here⟩
      · have later : ∃ item ∈ items, property item := by simpa [here] using some
        obtain ⟨before, first, behind, rfl, others, found⟩ := ih later
        exact ⟨item :: before, first, behind, rfl, List.forall_mem_cons.mpr ⟨here, others⟩, found⟩

theorem first_unique {α : Type} {property : α → Prop} {before others behind rest : List α}
    {item other : α} (same : before ++ item :: behind = others ++ other :: rest)
    (unfound : ∀ item ∈ before, ¬ property item) (found : property item)
    (unfound' : ∀ item ∈ others, ¬ property item) (found' : property other) :
    before = others ∧ behind = rest := by
  induction before generalizing others with
  | nil =>
      cases others with
      | nil => exact ⟨rfl, (List.cons.inj same).2⟩
      | cons first others =>
          obtain ⟨rfl, -⟩ := List.cons.inj same
          exact absurd found (unfound' item List.mem_cons_self)
  | cons first before ih =>
      cases others with
      | nil =>
          obtain ⟨rfl, -⟩ := List.cons.inj same
          exact absurd found' (unfound first List.mem_cons_self)
      | cons second others =>
          obtain ⟨rfl, later⟩ := List.cons.inj same
          obtain ⟨rfl, rest⟩ := ih later
            (fun item member => unfound item (List.mem_cons_of_mem _ member))
            fun item member => unfound' item (List.mem_cons_of_mem _ member)
          exact ⟨rfl, rest⟩

/-- A block that some line begins begins on the first such line. -/
theorem HasBlock.exists_split (block : HasBlock name lines) :
    ∃ above first between last below, lines = above ++ first :: (between ++ last :: below) ∧
      (∀ line ∈ above, ¬ Begins name line) ∧ Begins name first ∧
      (∀ line ∈ between, ¬ Ends name line) ∧ Ends name last := by
  obtain ⟨front, line, back, rfl, begins, last, among, ends⟩ := block
  obtain ⟨above, first, others, split, unbegun, begins⟩ : ∃ above first others,
      front ++ [line] = above ++ first :: others ∧ (∀ line ∈ above, ¬ Begins name line) ∧
        Begins name first := exists_first ⟨line, by simp, begins⟩
  obtain ⟨between, last, below, rest, unended, ends⟩ : ∃ between last below,
      others ++ back = between ++ last :: below ∧ (∀ line ∈ between, ¬ Ends name line) ∧
        Ends name last := exists_first ⟨last, List.mem_append_right others among, ends⟩
  refine ⟨above, first, between, last, below, ?_, unbegun, begins, unended, ends⟩
  calc front ++ line :: back
      _ = front ++ [line] ++ back := by simp
      _ = above ++ first :: (others ++ back) := by rw [split, List.append_assoc, List.cons_append]
      _ = above ++ first :: (between ++ last :: below) := by rw [rest]

theorem extracts_extractBlock (content name : List Char) :
    Extracts name (linesOf content) (extractBlock content name) := by
  have plain : ∀ line ∈ linesOf content, '\n' ∉ line := fun line => not_mem_of_mem_linesOf
  have joined := join_linesOf content
  by_cases named : IsName name
  · by_cases block : HasBlock name (linesOf content)
    · obtain ⟨above, first, between, last, below, split, unbegun, begins, unended, ends⟩ :=
        block.exists_split
      rw [split] at plain joined
      have found : Text.firstMatch (blockPattern name) none
          (Text.join ['\n'] (above ++ first :: (between ++ last :: below))) = _ :=
        firstMatch_blockPattern_lines named (fun line member => plain line (by simp [member]))
          unbegun (plain first (by simp)) begins
          (fun line member => plain line (by simp [member])) (plain last (by simp)) unended ends
          none
      rw [joined] at found
      rw [extractBlock, if_pos (isBlockName_iff.mpr named), found]
      dsimp only
      rw [dropLineFeed_wholeLines]
      exact .block named split unbegun begins unended ends
    · have found := firstMatch_blockPattern_none named plain block none
      rw [joined] at found
      rw [extractBlock, if_pos (isBlockName_iff.mpr named), found]
      exact .missing fun both => block both.2
  · rw [extractBlock, if_neg (isBlockName_iff.not.mpr named)]
    exact .missing fun both => named both.1

/-- The lines of a text and the name leave one result only. -/
theorem Extracts.unique {result other : Except SnippetError (List Char)}
    (extracts : Extracts name lines result) (others : Extracts name lines other) :
    result = other := by
  have hasBlock : ∀ {above below between : List (List Char)} {first last : List Char},
      lines = above ++ first :: (between ++ last :: below) → Begins name first → Ends name last →
        HasBlock name lines := by
    intro above below between first last split begins ends
    exact ⟨above, first, between ++ last :: below, split, begins, last, by simp, ends⟩
  cases extracts with
  | block named split unbegun begins unended ends =>
      cases others with
      | block _ split' unbegun' begins' unended' ends' =>
          obtain ⟨rfl, rest⟩ :=
            first_unique (split.symm.trans split') unbegun begins unbegun' begins'
          obtain ⟨rfl, -⟩ := first_unique rest unended ends unended' ends'
          rfl
      | missing none => exact absurd ⟨named, hasBlock split begins ends⟩ none
  | missing none =>
      cases others with
      | block named split _ begins _ ends => exact absurd ⟨named, hasBlock split begins ends⟩ none
      | missing => rfl

end

/-- An end on the line of the beginning is none, and a block within the block belongs to it. -/
example : extractBlock
    "# @begin:a @end:a\n  x\n  # @Begin: b\n  # @end:b\n# @END: A.\n".toList "a".toList =
    .ok "x\n# @Begin: b\n# @end:b".toList := by decide +kernel

end Bindery.Snippet
