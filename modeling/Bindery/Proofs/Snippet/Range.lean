import Bindery.Proofs.Text.Mark
import Bindery.Proofs.Text.Trim
import Bindery.Snippet.Extract

/-!
# Ranges of lines

A reference names a range of lines if it is two numbers in order. The lines of the range are
there if the first one of them is, and a range that ends behind the last line ends with it.
-/

set_option autoImplicit false

namespace Bindery.Snippet

/-! ## References -/

/-- ASCII digits in base ten for a number below 2 to the 64th, with a plus sign in front or not. -/
inductive Numeral : List Char → Nat → Prop where
  | intro {plus digits : List Char} (sign : plus = [] ∨ plus = ['+']) (some : digits ≠ [])
      (decimal : ∀ c ∈ digits, c.isDigit = true) (bounded : Nat.ofDigitChars 10 digits 0 < UInt64.size) :
      Numeral (plus ++ digits) (Nat.ofDigitChars 10 digits 0)

/-- A numeral, with blanks around it or none. -/
inductive Denotes : List Char → Nat → Prop where
  | intro {front text back : List Char} {number : Nat}
      (before : ∀ c ∈ front, Text.isBlank c = true) (numeral : Numeral text number)
      (behind : ∀ c ∈ back, Text.isBlank c = true) : Denotes (front ++ text ++ back) number

/-- The reference is two numbers with a comma between them, which is its first one. -/
def Names (reference : List Char) (first last : Nat) : Prop :=
  ∃ front back, reference = front ++ ',' :: back ∧ ',' ∉ front ∧ Denotes front first ∧
    Denotes back last

/-- The reference names two lines in order, counted from one. The first of them is among so many
lines. -/
structure Spans (reference : List Char) (count first last : Nat) : Prop where
  names : Names reference first last
  positive : 1 ≤ first
  ordered : first ≤ last
  begins : first ≤ count

/-- The lines that a reference names: from the one of its first number to the one of its second or
the last one. -/
inductive RangeLines (reference : List Char) (lines : List (List Char)) :
    List (List Char) → Prop where
  | intro {first last : Nat} {above shown below : List (List Char)}
      (spans : Spans reference lines.length first last) (split : lines = above ++ shown ++ below)
      (start : above.length + 1 = first)
      (stop : above.length + shown.length = min last lines.length) :
      RangeLines reference lines shown

/-- What is extracted from some lines as the range of a reference. -/
inductive ExtractsRange (reference : List Char) (lines : List (List Char)) :
    Except SnippetError (List Char) → Prop where
  | lines {shown : List (List Char)} (among : RangeLines reference lines shown) :
      ExtractsRange reference lines (.ok (stripIndent (Text.join ['\n'] shown)))
  | invalid (none : ∀ first last, ¬ Spans reference lines.length first last) :
      ExtractsRange reference lines (.error (.invalidRange (String.ofList reference)))

section

variable {text reference : List Char} {number first last count : Nat} {range : LineRange}
  {lines shown : List (List Char)}

/-! ## Numbers -/

theorem isBlank_of_isDigit {c : Char} (digit : c.isDigit = true) : Text.isBlank c = false := by
  have bounds : 48 ≤ c.toNat ∧ c.toNat ≤ 57 := by
    simpa [Char.isDigit, UInt32.le_iff_toNat_le] using digit
  simp only [Text.isBlank, Text.inRanges, Text.blankRanges, List.any_cons, List.any_nil,
    Bool.or_false, Bool.or_eq_false_iff, Bool.and_eq_false_iff, decide_eq_false_iff_not]
  omega

theorem Numeral.isBlank_eq_false (numeral : Numeral text number) :
    ∀ c ∈ text, Text.isBlank c = false := by
  obtain ⟨sign, -, decimal, -⟩ := numeral
  intro c member
  rcases List.mem_append.mp member with plus | digit
  · rcases sign with rfl | rfl
    · cases plus
    · obtain rfl := List.mem_singleton.mp plus
      rfl
  · exact isBlank_of_isDigit (decimal c digit)

theorem decimal?_eq_some_iff {digits : List Char} : decimal? digits = some number ↔
    digits ≠ [] ∧ (∀ c ∈ digits, c.isDigit = true) ∧ Nat.ofDigitChars 10 digits 0 = number ∧
      number < UInt64.size := by
  have value : digits.foldl (fun value c => value * 10 + (c.toNat - '0'.toNat)) 0 =
      Nat.ofDigitChars 10 digits 0 := by
    simp only [Nat.ofDigitChars_eq_foldl, Nat.mul_comm]
  rw [decimal?]
  dsimp only
  rw [value]
  split
  · next other =>
      constructor
      · nofun
      · rintro ⟨some, decimal, -, -⟩
        rw [Bool.or_eq_true, List.isEmpty_iff, Bool.not_eq_true', ← Bool.not_eq_true,
          List.all_eq_true] at other
        rcases other with none | other
        · exact absurd none some
        · exact absurd decimal other
  · next other =>
      rw [Bool.or_eq_true, List.isEmpty_iff, Bool.not_eq_true', ← Bool.not_eq_true,
        List.all_eq_true, not_or, not_not] at other
      rw [Option.ite_none_right_eq_some, Option.some.injEq]
      constructor
      · rintro ⟨bounded, rfl⟩
        exact ⟨other.1, other.2, rfl, bounded⟩
      · rintro ⟨-, -, rfl, bounded⟩
        exact ⟨bounded, rfl⟩

theorem lineNumber?_eq_some_iff : lineNumber? text = some number ↔ Numeral text number := by
  constructor
  · intro read
    unfold lineNumber? at read
    split at read
    · obtain ⟨some, decimal, rfl, bounded⟩ := decimal?_eq_some_iff.mp read
      exact .intro (.inr rfl) some decimal bounded
    · obtain ⟨some, decimal, rfl, bounded⟩ := decimal?_eq_some_iff.mp read
      exact .intro (.inl rfl) some decimal bounded
  · rintro ⟨rfl | rfl, some, decimal, bounded⟩
    · rename_i digits
      have read := decimal?_eq_some_iff.mpr ⟨some, decimal, rfl, bounded⟩
      rw [List.nil_append, lineNumber?]
      · exact read
      · rintro rest rfl
        exact absurd (decimal '+' List.mem_cons_self) (by decide)
    · exact decimal?_eq_some_iff.mpr ⟨some, decimal, rfl, bounded⟩

theorem denotes_iff : Denotes text number ↔ lineNumber? (Text.trim text) = some number := by
  rw [lineNumber?_eq_some_iff]
  constructor
  · rintro ⟨before, numeral, behind⟩
    rw [Text.trim_append_blanks (List.all_eq_true.mpr behind), Text.trim,
      Text.trimStart_blanks_append (List.all_eq_true.mpr before), ← Text.trim,
      Text.trim_eq_self numeral.isBlank_eq_false]
    exact numeral
  · intro numeral
    obtain ⟨front, back, whole, before, behind⟩ := Text.exists_trim text
    rw [whole]
    exact .intro before numeral behind

theorem names_iff : Names reference first last ↔ ∃ front back,
    Text.splitOnce ',' reference = some (front, back) ∧
      lineNumber? (Text.trim front) = some first ∧ lineNumber? (Text.trim back) = some last := by
  simp only [Names, Text.splitOnce_eq_some_iff, denotes_iff, and_assoc]

theorem Names.unique {other farther : Nat} (names : Names reference first last)
    (others : Names reference other farther) : first = other ∧ last = farther := by
  obtain ⟨front, back, split, here, there⟩ := names_iff.mp names
  obtain ⟨_, _, split', here', there'⟩ := names_iff.mp others
  obtain ⟨rfl, rfl⟩ := Prod.mk.inj (Option.some.inj (split.symm.trans split'))
  exact ⟨Option.some.inj (here.symm.trans here'), Option.some.inj (there.symm.trans there')⟩

/-! ## Ranges -/

theorem parse?_eq_some_iff :
    LineRange.parse? reference = some range ↔ Names reference range.first range.last := by
  rw [names_iff]
  unfold LineRange.parse?
  simp only [Option.bind_eq_bind, Option.bind_eq_some_iff, Option.dite_none_right_eq_some, Prod.exists]
  constructor
  · rintro ⟨front, back, split, first, here, last, there, proper, same⟩
    obtain rfl := Option.some.inj same
    exact ⟨front, back, split, here, there⟩
  · rintro ⟨front, back, split, here, there⟩
    exact ⟨front, back, split, _, here, _, there, ⟨range.positive, range.ordered⟩, rfl⟩

theorem slice_eq_iff {α : Type} {items shown : List α} {start stop : Nat}
    (places : start ≤ stop ∧ stop ≤ items.length) : slice items start stop places = shown ↔
      ∃ above below, items = above ++ shown ++ below ∧ above.length = start ∧
        above.length + shown.length = stop := by
  rw [slice]
  constructor
  · rintro rfl
    refine ⟨items.take start, items.drop stop, ?_, ?_, ?_⟩
    · have rest : items.drop start = (items.drop start).take (stop - start) ++ items.drop stop := by
        have behind : start + (stop - start) = stop := Nat.add_sub_cancel' places.1
        rw [← behind, ← List.drop_drop, behind, List.take_append_drop]
      rw [List.append_assoc, ← rest, List.take_append_drop]
    · rw [List.length_take]
      omega
    · rw [List.length_take, List.length_take, List.length_drop]
      omega
  · rintro ⟨above, below, rfl, rfl, rfl⟩
    rw [List.append_assoc, List.drop_left, Nat.add_sub_cancel_left, List.take_left]

theorem select?_eq_some_iff : range.select? lines = some shown ↔
    range.first ≤ lines.length ∧ ∃ above below, lines = above ++ shown ++ below ∧
      above.length + 1 = range.first ∧
        above.length + shown.length = min range.last lines.length := by
  have positive := range.positive
  rw [LineRange.select?, Option.dite_none_right_eq_some]
  simp only [Option.some.injEq, slice_eq_iff, exists_prop]
  refine and_congr_right fun begins => exists_congr fun above => exists_congr fun below => ?_
  refine and_congr_right fun _ => and_congr_left fun _ => ?_
  omega

theorem select?_eq_none_iff : range.select? lines = none ↔ lines.length < range.first := by
  rw [LineRange.select?]
  split
  · next begins => simpa using begins
  · next behind => simpa using behind

theorem Spans.exists_parse? (spans : Spans reference count first last) :
    ∃ range, LineRange.parse? reference = some range ∧ range.first = first ∧ range.last = last :=
  ⟨⟨first, last, spans.positive, spans.ordered⟩, parse?_eq_some_iff.mpr spans.names, rfl, rfl⟩

theorem RangeLines.unique {others : List (List Char)} (among : RangeLines reference lines shown)
    (among' : RangeLines reference lines others) : shown = others := by
  obtain ⟨spans, split, start, stop⟩ := among
  obtain ⟨spans', split', start', stop'⟩ := among'
  obtain ⟨rfl, rfl⟩ := spans.names.unique spans'.names
  subst split
  rw [List.append_assoc, List.append_assoc] at split'
  obtain ⟨-, rest⟩ := List.append_inj split' (by omega)
  exact (List.append_inj rest (by omega)).1

/-- How far behind the last line a range ends does not matter. -/
theorem RangeLines.of_past {other : List Char} {farther : Nat}
    (among : RangeLines reference lines shown) (here : Names reference first last)
    (there : Names other first farther) (past : lines.length ≤ last)
    (past' : lines.length ≤ farther) : RangeLines other lines shown := by
  obtain ⟨spans, split, start, stop⟩ := among
  obtain ⟨rfl, rfl⟩ := here.unique spans.names
  refine .intro ⟨there, spans.positive, spans.begins.trans past', spans.begins⟩ split start ?_
  rw [stop, Nat.min_eq_right past, Nat.min_eq_right past']

theorem extractRange_eq (content reference : List Char) : extractRange content reference =
    match (LineRange.parse? reference).bind (·.select? (Text.lines content)) with
    | some shown => .ok (stripIndent (Text.join ['\n'] shown))
    | none => .error (.invalidRange (String.ofList reference)) := by
  rw [extractRange, LineRange.parse]
  cases LineRange.parse? reference with
  | none => rfl
  | some range =>
      rw [Option.bind_some]
      cases selected : range.select? (Text.lines content) <;>
        simp only [bind, Except.bind, selected] <;> rfl

theorem extractsRange_extractRange (content reference : List Char) :
    ExtractsRange reference (Text.lines content) (extractRange content reference) := by
  rw [extractRange_eq]
  cases found : (LineRange.parse? reference).bind (·.select? (Text.lines content)) with
  | none =>
      refine .invalid fun first last spans => ?_
      obtain ⟨range, read, rfl, -⟩ := spans.exists_parse?
      rw [read, Option.bind_some] at found
      exact Nat.not_lt.mpr spans.begins (select?_eq_none_iff.mp found)
  | some shown =>
      obtain ⟨range, read, selected⟩ := Option.bind_eq_some_iff.mp found
      obtain ⟨begins, above, below, split, start, stop⟩ := select?_eq_some_iff.mp selected
      have spans : Spans reference (Text.lines content).length range.first range.last :=
        ⟨parse?_eq_some_iff.mp read, range.positive, range.ordered, begins⟩
      exact .lines (.intro spans split start stop)

theorem ExtractsRange.unique {result other : Except SnippetError (List Char)}
    (extracts : ExtractsRange reference lines result)
    (others : ExtractsRange reference lines other) : result = other := by
  cases extracts with
  | lines among =>
      cases others with
      | lines among' => rw [among.unique among']
      | invalid none =>
          obtain ⟨spans, -, -, -⟩ := among
          exact absurd spans (none _ _)
  | invalid none =>
      cases others with
      | lines among =>
          obtain ⟨spans, -, -, -⟩ := among
          exact absurd spans (none _ _)
      | invalid => rfl

end

/-- The range of a reference is the lines from its first number to its second one or the last line,
without the indentation that they share. There is such a range exactly if the reference is two
numbers in order, counted from one, and the first of them is that of a line. So the places between
which the lines are taken are always in order and within the lines, and it does not matter how far
behind the last line a range ends. -/
theorem extractRange_eq_iff (content reference : List Char) :
    (∀ result, extractRange content reference = result ↔
      ExtractsRange reference (Text.lines content) result) ∧
    (∀ range, LineRange.parse reference = .ok range → range.first ≤ (Text.lines content).length →
      1 ≤ range.first ∧ range.first - 1 ≤ min range.last (Text.lines content).length ∧
        min range.last (Text.lines content).length ≤ (Text.lines content).length) ∧
    ∀ first last other farther, Spans reference (Text.lines content).length first last →
      Names other first farther → (Text.lines content).length ≤ last →
        (Text.lines content).length ≤ farther →
          extractRange content other = extractRange content reference := by
  have extracts := extractsRange_extractRange content reference
  refine ⟨fun result => ⟨?_, extracts.unique⟩, fun range read begins => ?_, ?_⟩
  · rintro rfl
    exact extracts
  · exact ⟨range.positive, range.places begins⟩
  · intro first last other farther spans names past past'
    refine (extractsRange_extractRange content other).unique ?_
    generalize extractRange content reference = result at extracts ⊢
    cases extracts with
    | lines among => exact .lines (among.of_past spans.names names past past')
    | invalid none => exact absurd spans (none first last)

/-- Only the first comma is one between two numbers, and the end may be behind the last line. -/
example : extractRange "a\r\n  b\n    c".toList "\t2 ,+099 ".toList = .ok "b\n  c".toList ∧
    extractRange "a\nb\nc".toList "1,2,3".toList = .error (.invalidRange "1,2,3") := by
  decide +kernel

end Bindery.Snippet
