import Bindery.Proofs.Text.Mark
import Bindery.Proofs.Text.Pattern
import Bindery.Snippet.Directive

/-!
# What a header says

A header is read by one pattern for the whole of it. Its words are on one line, with one
space between them, and so the pattern finds what a reader finds who goes through the
words: the language, then the file up to the first sign, then the part of the file.
-/

set_option autoImplicit false

namespace Bindery

namespace Text

/-- None of the pieces is empty, and none has a blank. -/
def AreWords (pieces : List (List Char)) : Prop :=
  ∀ piece ∈ pieces, piece ≠ [] ∧ ∀ c ∈ piece, isBlank c = false

theorem areWords_words (text : List Char) : AreWords (words text) := by
  intro word member
  have nonempty : word ≠ [] := by simpa using (List.mem_filter.mp member).2
  exact ⟨nonempty, isBlank_of_mem_words member⟩

theorem AreWords.blank_not_mem {pieces : List (List Char)} {piece : List Char} {c : Char}
    (pieces_words : AreWords pieces) (among : piece ∈ pieces) (blank : isBlank c = true) :
    c ∉ piece := by
  intro member
  rw [(pieces_words piece among).2 c member] at blank
  cases blank

theorem AreWords.lineFeed_not_mem_join {pieces : List (List Char)} (pieces_words : AreWords pieces) :
    '\n' ∉ join [' '] pieces := by
  rw [← List.singleton_infix_iff, infix_join_iff (by decide) (by decide)]
  rintro ⟨piece, among, inside⟩
  exact pieces_words.blank_not_mem among rfl ((List.singleton_infix_iff _ _).mp inside)

end Text

namespace Snippet.Directive

theorem isBlank_of_mem_squeeze {header : List Char} {c : Char} (member : c ∈ squeeze header)
    (other : c ≠ ' ') : Text.isBlank c = false := by
  have alone : ' ' ∉ [c] := by simpa using Ne.symm other
  rw [← List.singleton_infix_iff, squeeze, Text.infix_join_iff alone (List.cons_ne_nil c [])]
    at member
  obtain ⟨word, among, inside⟩ := member
  exact Text.isBlank_of_mem_words among c ((List.singleton_infix_iff c word).mp inside)

/-! ## Headers word by word -/

/-- The header has no words, or its second word begins with a sign. -/
inductive Unread : List (List Char) → Prop where
  | blank : Unread []
  | signed {language target : List Char} {others : List (List Char)} {sign : Char}
      (first : sign = ':' ∨ sign = '#') : Unread (language :: (sign :: target) :: others)

/-- What the words of a header say. Behind the language stands a file, and behind the first sign
there the part of it. -/
inductive Reads : List (List Char) → Directive → Prop where
  | nothing {words : List (List Char)} (unread : Unread words) :
      Reads words ⟨none, none, .inline, none⟩
  | language (language : List Char) : Reads [language] ⟨some language, none, .inline, none⟩
  | file {language target file : List Char} {others : List (List Char)}
      (read : ¬ Unread (language :: target :: others))
      (behind : Text.join [' '] (target :: others) = file)
      (colon : ':' ∉ file) (number : '#' ∉ file) :
      Reads (language :: target :: others) ⟨some language, some file, .wholeFile, none⟩
  | range {language target file reference : List Char} {others : List (List Char)}
      (read : ¬ Unread (language :: target :: others))
      (behind : Text.join [' '] (target :: others) = file ++ ':' :: reference)
      (colon : ':' ∉ file) (number : '#' ∉ file) :
      Reads (language :: target :: others) ⟨some language, some file, .range, some reference⟩
  | block {language target file reference : List Char} {others : List (List Char)}
      (read : ¬ Unread (language :: target :: others))
      (behind : Text.join [' '] (target :: others) = file ++ '#' :: reference)
      (colon : ':' ∉ file) (number : '#' ∉ file) :
      Reads (language :: target :: others) ⟨some language, some file, .block, some reference⟩

/-- The sign before the part of a file that is shown. -/
def sign : Mode → List Char
  | .inline => []
  | .wholeFile => []
  | .range => [':']
  | .block => ['#']

/-- The directive written as a header. -/
def written (directive : Directive) : List Char :=
  directive.language.getD [] ++ (directive.file.map (' ' :: ·)).getD [] ++ sign directive.mode ++
    directive.reference.getD []

section

variable {language target file reference text : List Char} {others words : List (List Char)}
  {before : Option Char} {directive : Directive}

theorem isSign_iff {c : Char} : isSign c = true ↔ c = ':' ∨ c = '#' := by
  rw [isSign, Bool.or_eq_true, beq_iff_eq, beq_iff_eq]

theorem unsigned_iff : (∀ c ∈ file, (!isSign c) = true) ↔ ':' ∉ file ∧ '#' ∉ file := by
  constructor
  · intro unsigned
    exact ⟨fun member => absurd (unsigned _ member) (by decide),
      fun member => absurd (unsigned _ member) (by decide)⟩
  · rintro ⟨colon, number⟩ c member
    rw [Bool.not_eq_true', Bool.eq_false_iff]
    intro signed
    rcases isSign_iff.mp signed with rfl | rfl
    · exact colon member
    · exact number member

theorem join_language (language target : List Char) (others : List (List Char)) :
    Text.join [' '] (language :: target :: others) =
      language ++ ' ' :: Text.join [' '] (target :: others) := by
  rw [Text.join, Text.join, List.intercalate_cons_cons, List.append_assoc, List.singleton_append]

theorem exists_join_of_cons (c : Char) (target : List Char) (others : List (List Char)) :
    ∃ tail, Text.join [' '] ((c :: target) :: others) = c :: tail := by
  cases others with
  | nil => exact ⟨target, List.intercalate_singleton⟩
  | cons next others => exact ⟨_, join_language (c :: target) next others⟩

/-! ## The pattern of a header -/

section

variable {α : Type} {ending : Option (List Char × List Char) → α}

/-- The part of a file reaches to the end of the header. -/
theorem optional_partPattern_sign {c : Char} (signed : isSign c = true) (plain : '\n' ∉ reference)
    (before : Option Char) :
    Text.optional partPattern (fun part => Text.textEnd fun _ _ => some (ending part)) before
        (c :: reference) = some (ending (some ([c], reference))) := by
  refine Text.either_of_some ?_
  rw [partPattern, Text.group_one signed, Text.group_leastOf_all]
  · rfl
  · intro c member
    exact bne_iff_ne.mpr fun same => plain (same ▸ member)
  · intro taken before c rest
    rfl

theorem filePattern_file {next : List Char × Option (List Char × List Char) → Text.Matcher α}
    {rest : List Char} {found : α} (nonempty : file ≠ []) (colon : ':' ∉ file) (number : '#' ∉ file)
    (stops : ∀ c ∈ rest.head?, isSign c = true)
    (fits : Text.optional partPattern (fun part => next (file, part))
      (Text.lastOf (some ' ') file) rest = some found) :
    filePattern next before (' ' :: (file ++ rest)) = some found := by
  rw [filePattern, Text.one, if_pos (by rfl)]
  refine Text.group_someOf_all nonempty (unsigned_iff.mpr ⟨colon, number⟩) (fun c first => ?_) fits
  rw [stops c first]
  rfl

end

/-- The language is the first word. -/
theorem headerPattern_language {rest : List Char} (nonempty : language ≠ []) (alone : ' ' ∉ language)
    (stops : ∀ c ∈ rest.head?, c = ' ')
    (fits : Text.optional filePattern
      (fun file => Text.textEnd fun _ _ => some (ofGroups language file))
        (Text.lastOf none language) rest = some directive) :
    headerPattern none (language ++ rest) = some directive := by
  refine Text.group_someOf_all nonempty (fun c member => ?_) (fun c first => ?_) fits
  · exact bne_iff_ne.mpr fun same => alone (same ▸ member)
  · rw [stops c first]
    rfl

theorem headerPattern_signed (alone : ' ' ∉ language) {c : Char} (signed : isSign c = true)
    (rest : List Char) : headerPattern none (language ++ ' ' :: c :: rest) = none := by
  rw [Option.eq_none_iff_forall_ne_some]
  intro directive read
  obtain ⟨taken, behind, whole, ⟨-, unspaced⟩, read⟩ :=
    Text.exists_of_group Text.exists_of_someOf read
  have alone' : ' ' ∉ taken := fun member => absurd (unspaced _ member) (by decide)
  rcases Text.either_eq_some read with read | read
  · obtain ⟨space, target, rfl, first, read⟩ := Text.exists_of_one read
    obtain rfl := beq_iff_eq.mp first
    -- The first space of the header is behind the language.
    have here : Text.splitOnce ' ' (language ++ ' ' :: c :: rest) = some (language, c :: rest) :=
      Text.splitOnce_eq_some_iff.mpr ⟨rfl, alone⟩
    rw [whole, Text.splitOnce_eq_some_iff.mpr ⟨rfl, alone'⟩, Option.some.injEq,
      Prod.mk.injEq] at here
    obtain ⟨-, rfl⟩ := here
    obtain ⟨file, behind, split, ⟨nonempty, unsigned⟩, -⟩ :=
      Text.exists_of_group Text.exists_of_someOf read
    obtain ⟨d, others, rfl⟩ := List.exists_cons_of_ne_nil nonempty
    obtain ⟨rfl, -⟩ := List.cons.inj split
    have unsigned := unsigned c List.mem_cons_self
    rw [signed] at unsigned
    cases unsigned
  · cases behind with
    | nil =>
        rw [List.append_nil] at whole
        exact alone' (whole ▸ by simp)
    | cons d behind => cases read

/-! ## Headers -/

theorem exists_reads (words : List (List Char)) : ∃ directive, Reads words directive := by
  by_cases unread : Unread words
  · exact ⟨_, .nothing unread⟩
  · match words, unread with
    | [], unread => exact absurd .blank unread
    | [language], _ => exact ⟨_, .language language⟩
    | language :: target :: others, read =>
        cases found : (Text.join [' '] (target :: others)).find? isSign with
        | none =>
            have unsigned := List.find?_eq_none.mp found
            exact ⟨_, .file read rfl (fun member => unsigned _ member (by decide))
              fun member => unsigned _ member (by decide)⟩
        | some c =>
            obtain ⟨signed, file, reference, behind, unsigned⟩ :=
              List.find?_eq_some_iff_append.mp found
            obtain ⟨colon, number⟩ := unsigned_iff.mp unsigned
            rcases isSign_iff.mp signed with rfl | rfl
            · exact ⟨_, .range read behind colon number⟩
            · exact ⟨_, .block read behind colon number⟩

/-- Behind the language something stands before the first sign. -/
theorem file_ne_nil {rest : List Char} (read : ¬ Unread (language :: target :: others))
    (nonempty : target ≠ []) (behind : Text.join [' '] (target :: others) = file ++ rest)
    (stops : ∀ c ∈ rest.head?, isSign c = true) : file ≠ [] := by
  rintro rfl
  obtain ⟨c, target, rfl⟩ := List.exists_cons_of_ne_nil nonempty
  obtain ⟨tail, same⟩ := exists_join_of_cons c target others
  have first : rest.head? = some c := by
    rw [← List.nil_append rest, ← behind, same]
    rfl
  exact read (.signed (isSign_iff.mp (stops c first)))

/-- A header with a file that can be read is found to its end. -/
theorem headerPattern_file {rest : List Char}
    (shown : Text.AreWords (language :: target :: others))
    (read : ¬ Unread (language :: target :: others))
    (behind : Text.join [' '] (target :: others) = file ++ rest) (colon : ':' ∉ file)
    (number : '#' ∉ file) (stops : ∀ c ∈ rest.head?, isSign c = true)
    (fits : ∀ before, Text.optional partPattern
      (fun part => Text.textEnd fun _ _ => some (ofGroups language (some (file, part)))) before
        rest = some directive) :
    headerPattern none (Text.join [' '] (language :: target :: others)) = some directive := by
  have nonempty : file ≠ [] := file_ne_nil read (shown target (by simp)).1 behind stops
  rw [join_language, behind]
  refine headerPattern_language (shown language (by simp)).1
    (shown.blank_not_mem (by simp) rfl) (by simp) (Text.either_of_some ?_)
  exact filePattern_file nonempty colon number stops (fits _)

theorem headerPattern_part {c : Char} (shown : Text.AreWords (language :: target :: others))
    (read : ¬ Unread (language :: target :: others))
    (behind : Text.join [' '] (target :: others) = file ++ c :: reference) (colon : ':' ∉ file)
    (number : '#' ∉ file) (signed : isSign c = true) :
    headerPattern none (Text.join [' '] (language :: target :: others)) =
      some (ofGroups language (some (file, some ([c], reference)))) := by
  have plain : '\n' ∉ reference := by
    intro member
    refine shown.lineFeed_not_mem_join ?_
    rw [join_language, behind]
    simp [member]
  refine headerPattern_file shown read behind colon number (by simp [signed]) fun before => ?_
  exact optional_partPattern_sign signed plain before

theorem getD_headerPattern (reads : Reads words directive) (shown : Text.AreWords words) :
    (headerPattern none (Text.join [' '] words)).getD unreadable = directive := by
  cases reads with
  | nothing unread =>
      cases unread with
      | blank => rfl
      | @signed language target others c first =>
          obtain ⟨tail, same⟩ := exists_join_of_cons c target others
          have unspaced : ' ' ∉ language := shown.blank_not_mem List.mem_cons_self rfl
          rw [join_language, same, headerPattern_signed unspaced (isSign_iff.mpr first)]
          rfl
  | language language =>
      have found : headerPattern none (language ++ []) = some ⟨some language, none, .inline, none⟩ :=
        headerPattern_language (shown language (by simp)).1
          (shown.blank_not_mem (by simp) rfl) nofun rfl
      rw [Text.join, List.intercalate_singleton, ← List.append_nil language, found,
        List.append_nil]
      rfl
  | file read behind colon number =>
      have whole := behind.trans (List.append_nil _).symm
      rw [headerPattern_file shown read whole colon number nofun fun _ => rfl]
      rfl
  | range read behind colon number =>
      rw [headerPattern_part shown read behind colon number rfl]
      rfl
  | block read behind colon number =>
      rw [headerPattern_part shown read behind colon number rfl]
      rfl

theorem parse_eq_iff (header : List Char) :
    parse header = directive ↔ Reads (Text.words header) directive := by
  have shown := Text.areWords_words header
  constructor
  · rintro rfl
    obtain ⟨directive, reads⟩ := exists_reads (Text.words header)
    rw [parse, squeeze, getD_headerPattern reads shown]
    exact reads
  · exact fun reads => getD_headerPattern reads shown

/-! ## What a header says -/

/-- What can be read of a header is all of it. -/
theorem Reads.written_eq (reads : Reads words directive) (read : ¬ Unread words) :
    directive.written = Text.join [' '] words := by
  cases reads with
  | nothing unread => exact absurd unread read
  | language language => simp [written, sign, Text.join]
  | file _ behind _ _ => simp [written, sign, join_language, behind]
  | range _ behind _ _ => simp [written, sign, join_language, behind]
  | block _ behind _ _ => simp [written, sign, join_language, behind]

/-- What cannot be read names nothing. -/
theorem Reads.eq_unreadable (reads : Reads words directive) (unread : Unread words) :
    directive = unreadable := by
  cases reads with
  | nothing => rfl
  | language language => cases unread
  | file read => exact absurd unread read
  | range read => exact absurd unread read
  | block read => exact absurd unread read

/-- The mode tells which parts the header has. -/
theorem Reads.mode (reads : Reads words directive) :
    (directive.mode = .inline ↔ directive.file = none) ∧
      (directive.reference.isSome = true ↔ directive.mode = .range ∨ directive.mode = .block) := by
  cases reads <;> simp

theorem written_subset_squeeze (header : List Char) : (parse header).written ⊆ squeeze header := by
  have reads := (parse_eq_iff header).mp rfl
  by_cases unread : Unread (Text.words header)
  · rw [reads.eq_unreadable unread]
    exact List.nil_subset _
  · rw [squeeze, ← reads.written_eq unread]
    exact List.Subset.refl _

theorem language_subset_written (named : directive.language = some language) :
    language ⊆ directive.written := by
  intro c member
  simp [written, named, member]

theorem file_subset_written (named : directive.file = some file) : file ⊆ directive.written := by
  intro c member
  simp [written, named, member]

theorem reference_subset_written (directive : Directive) :
    directive.reference.getD [] ⊆ directive.written := by
  intro c member
  simp [written, member]

/-- No part of a header ends a line. -/
theorem lineEnd_not_mem_written (header : List Char) {c : Char} (ends : c = '\n' ∨ c = '\r') :
    c ∉ (parse header).written := by
  intro member
  have visible := isBlank_of_mem_squeeze (written_subset_squeeze header member)
    (by rcases ends with rfl | rfl <;> decide)
  rcases ends with rfl | rfl <;> exact absurd visible (by decide)

theorem carriageReturn_not_mem_file {header file : List Char}
    (named : (parse header).file = some file) : '\r' ∉ file := fun member =>
  lineEnd_not_mem_written header (.inr rfl) (file_subset_written named member)

end

/-- A header says what its words say: nothing if it has none or the second one begins with a sign,
and otherwise its language, its file and the part of it, which written one behind another are the
header again. Only the code of a snippet that names no file is its own, and only ranges and blocks
have a reference. -/
theorem parse_reads (header : List Char) :
    (∀ directive, parse header = directive ↔ Reads (Text.words header) directive) ∧
      (Unread (Text.words header) ∧ parse header = unreadable ∨
        ¬ Unread (Text.words header) ∧ (parse header).written = squeeze header) ∧
      ((parse header).mode = .inline ↔ (parse header).file = none) ∧
      ((parse header).reference.isSome = true ↔
        (parse header).mode = .range ∨ (parse header).mode = .block) := by
  have reads : Reads (Text.words header) (parse header) := (parse_eq_iff header).mp rfl
  refine ⟨fun directive => parse_eq_iff header, ?_, reads.mode⟩
  by_cases unread : Unread (Text.words header)
  · exact .inl ⟨unread, reads.eq_unreadable unread⟩
  · exact .inr ⟨unread, reads.written_eq unread⟩

/-- A file may have spaces in its name, and only the first sign counts. -/
example : parse " ruby\tlib/my  app.rb#a:b ".toList =
    ⟨some "ruby".toList, some "lib/my app.rb".toList, .block, some "a:b".toList⟩ := by
  decide +kernel

end Snippet.Directive

end Bindery
