import Bindery.Proofs.Textile.Lexeme

/-!
# Escaped text

Escaping goes through a text once, from the left. It copies tags, comments and
references, and writes the reference of a sign that belongs to none of them. So what
it writes has the same tags and comments, and nothing in it is left to escape.
-/

set_option autoImplicit false

namespace Bindery.Textile

/-! ## One pass -/

/-- Tags and comments are copied, and elsewhere signs are escaped. -/
def escapeRule : Text.Rule := fun text =>
  match keptLength? text with
  | some length => some (length, text.take length)
  | none => escapeSign text

/-- What is written for a character that belongs to no tag, comment or reference. -/
def escapedChar (c : Char) : List Char :=
  if c = '&' then "&amp;".toList
  else if c = '<' then "&lt;".toList
  else if c = '>' then "&gt;".toList
  else [c]

section

variable {text rest content : List Char} {c sign : Char} {length : Nat}

theorem length_lt_append (nonempty : content ≠ []) (rest : List Char) :
    rest.length < (content ++ rest).length := by
  have := List.length_pos_of_ne_nil nonempty
  rw [List.length_append]
  omega

theorem isAlphanum_of_isHexDigit (hex : isHexDigit c = true) : c.isAlphanum = true := by
  unfold isHexDigit at hex
  unfold Char.isAlphanum Char.isAlpha Char.isUpper Char.isLower
  simp only [Bool.or_eq_true, Bool.and_eq_true, decide_eq_true_eq, Char.le_def,
    UInt32.le_iff_toNat_le, ge_iff_le] at hex ⊢
  have small : 'f'.val.toNat ≤ 'z'.val.toNat := by decide
  have capital : 'F'.val.toNat ≤ 'Z'.val.toNat := by decide
  rcases hex with (digit | lower) | upper
  · exact .inr digit
  · exact .inl (.inr ⟨lower.1, lower.2.trans small⟩)
  · exact .inl (.inl ⟨upper.1, upper.2.trans capital⟩)

theorem not_mem_reference (name : sign.isAlphanum = false)
    (number : Text.isDecimalDigit sign = false) (other : sign ∉ ['&', '#', ';'])
    (reference : IsReference content) : sign ∉ content := by
  simp only [List.mem_cons, List.not_mem_nil, or_false, not_or] at other
  have letter : ∀ d : Char, d.isAlphanum = true → sign ≠ d := by
    rintro d own rfl
    rw [name] at own
    cases own
  cases reference with
  | @named first name own others =>
      have rest : sign ∉ name := fun member => letter _ (others _ member) rfl
      have first := letter first (by simp [Char.isAlphanum, own])
      simp [other, first, rest]
  | @decimal digits _ each =>
      have rest : sign ∉ digits := by
        intro member
        rw [each sign member] at number
        cases number
      simp [other, rest]
  | @hexadecimal mark digits signed _ each =>
      have rest : sign ∉ digits :=
        fun member => letter _ (isAlphanum_of_isHexDigit (each sign member)) rfl
      have first := letter mark (by rcases signed with rfl | rfl <;> decide)
      simp [other, first, rest]

theorem isReference_head (reference : IsReference content) : content.head? = some '&' := by
  cases reference <;> rfl

theorem exists_of_isReference (reference : IsReference content) :
    ∃ front, content = front ++ [';'] := by
  cases reference with
  | named => exact ⟨'&' :: _ :: _, rfl⟩
  | decimal => exact ⟨'&' :: '#' :: _, rfl⟩
  | hexadecimal => exact ⟨'&' :: '#' :: _ :: _, rfl⟩

theorem reference_ne_nil (reference : IsReference content) : content ≠ [] := by
  rintro rfl
  cases isReference_head reference

theorem referenceLength?_of_head (other : text.head? ≠ some '&') :
    referenceLength? text = none := by
  cases read : referenceLength? text with
  | none => rfl
  | some length =>
      obtain ⟨reference, rest, rfl, own, -⟩ := referenceLength?_eq_some_iff.mp read
      obtain ⟨behind, rfl⟩ := List.head?_eq_some_iff.mp (isReference_head own)
      exact absurd rfl other

/-- A reference does not reach across a sign that references do not have. -/
theorem referenceLength?_append_cons
    (absent : ∀ reference, IsReference reference → sign ∉ reference) (text rest : List Char) :
    referenceLength? (text ++ sign :: rest) = referenceLength? text := by
  ext length
  simp only [referenceLength?_eq_some_iff]
  constructor
  · rintro ⟨reference, behind, whole, own, rfl⟩
    obtain ⟨later, rfl⟩ := Text.prefix_of_prefix_append_cons (absent reference own)
      (whole ▸ List.prefix_append reference behind)
    exact ⟨reference, later, rfl, own, rfl⟩
  · rintro ⟨reference, behind, rfl, own, rfl⟩
    exact ⟨reference, behind ++ sign :: rest, List.append_assoc _ _ _, own, rfl⟩

theorem escapeSign_reference (own : IsReference content) (rest : List Char) :
    escapeSign (content ++ rest) = some (content.length, content) := by
  have read := referenceLength?_append own rest
  obtain ⟨behind, rfl⟩ := List.head?_eq_some_iff.mp (isReference_head own)
  rw [List.cons_append] at read ⊢
  rw [escapeSign, read]
  dsimp only
  rw [← List.cons_append, List.take_left]

/-- Where no reference begins, a sign is escaped. -/
theorem escapeSign_cons (unread : referenceLength? (c :: rest) = none) :
    escapeSign (c :: rest) = if escapedChar c = [c] then none else some (1, escapedChar c) := by
  unfold escapeSign escapedChar
  split
  · next behind same =>
      obtain ⟨rfl, rfl⟩ := List.cons.inj same
      rw [unread]
      rfl
  · next behind same =>
      obtain ⟨rfl, rfl⟩ := List.cons.inj same
      rfl
  · next behind same =>
      obtain ⟨rfl, rfl⟩ := List.cons.inj same
      rfl
  · next reference left right =>
      have other : c ≠ '&' ∧ c ≠ '<' ∧ c ≠ '>' :=
        ⟨fun same => reference rest (same ▸ rfl), fun same => left rest (same ▸ rfl),
          fun same => right rest (same ▸ rfl)⟩
      simp [other]

/-- The escapes before a sign that references do not have do not depend on what follows. -/
theorem escapeSign_append_cons (absent : ∀ reference, IsReference reference → sign ∉ reference)
    (nonempty : text ≠ []) (rest : List Char) :
    escapeSign (text ++ sign :: rest) = escapeSign text ∧
      ∀ use ∈ escapeSign text, use.1 ≤ text.length := by
  have same := referenceLength?_append_cons absent text rest
  cases read : referenceLength? text with
  | some length =>
      obtain ⟨reference, behind, rfl, own, rfl⟩ := referenceLength?_eq_some_iff.mp read
      rw [List.append_assoc, escapeSign_reference own, escapeSign_reference own]
      refine ⟨rfl, fun use used => ?_⟩
      cases used
      simp
  | none =>
      rw [read] at same
      obtain ⟨c, tail, rfl⟩ := List.exists_cons_of_ne_nil nonempty
      rw [List.cons_append] at same ⊢
      rw [escapeSign_cons same, escapeSign_cons read]
      refine ⟨rfl, fun use used => ?_⟩
      split at used
      · cases used
      · cases used
        simp

theorem keptLength?_of_head (other : text.head? ≠ some '<') : keptLength? text = none := by
  cases read : keptLength? text with
  | none => rfl
  | some length => exact absurd (endsTag_of_keptLength? read).1 other

theorem keptLength?_of_reference (own : IsReference content) (rest : List Char) :
    keptLength? (content ++ rest) = none := by
  obtain ⟨behind, rfl⟩ := List.head?_eq_some_iff.mp (isReference_head own)
  exact keptLength?_of_head (by simp)

theorem piecesAfter_eq_drop (taken : Nat) (text : List Char) :
    piecesAfter taken text = pieces (text.drop taken) := by
  induction text generalizing taken with
  | nil =>
      rw [List.drop_nil]
      cases taken <;> rfl
  | cons c rest ih =>
      cases taken with
      | zero => rfl
      | succ taken => exact ih taken

theorem kept_ne_nil (own : IsTag content ∨ IsComment content) : content ≠ [] := by
  rcases own with tag | comment
  · cases tag <;> exact List.cons_ne_nil _ _
  · cases comment
    exact List.cons_ne_nil _ _

theorem keptLength?_append (own : IsTag content ∨ IsComment content) (rest : List Char) :
    keptLength? (content ++ rest) = some content.length :=
  keptLength?_eq_some_iff.mpr ⟨content, rest, rfl, own, rfl⟩

theorem kept_head (own : IsTag content ∨ IsComment content) : content.head? = some '<' := by
  have read := keptLength?_append own []
  rw [List.append_nil] at read
  exact (endsTag_of_keptLength? read).1

theorem pieces_kept (own : IsTag content ∨ IsComment content) (rest : List Char) :
    pieces (content ++ rest) = .kept content :: pieces rest := by
  have read := keptLength?_append own rest
  obtain ⟨c, tail, rfl⟩ := List.exists_cons_of_ne_nil (kept_ne_nil own)
  rw [List.cons_append] at read ⊢
  rw [pieces, piecesAfter, read]
  dsimp only
  rw [piecesAfter_eq_drop, List.length_cons, Nat.add_sub_cancel, List.drop_left,
    ← List.cons_append, ← List.length_cons, List.take_left]

/-- A text that does not begin with a tag or comment begins with a plain piece, which goes on to
the next tag or comment. -/
theorem exists_plain (nonempty : text ≠ []) (unkept : keptLength? text = none) :
    ∃ plain behind, text = plain ++ behind ∧ plain ≠ [] ∧
      pieces text = .plain plain :: pieces behind ∧
      (∀ here, here <:+ plain → here ≠ [] → keptLength? (here ++ behind) = none) ∧
      (behind = [] ∨ behind.head? = some '<') := by
  induction text with
  | nil => exact absurd rfl nonempty
  | cons c rest ih =>
      have first : pieces (c :: rest) = addPlain c (pieces rest) := by
        rw [pieces, piecesAfter, unkept]
        rfl
      have alone : ∀ here, here <:+ [c] → here ≠ [] → keptLength? (here ++ rest) = none := by
        intro here suffix some
        rcases List.suffix_cons_iff.mp suffix with rfl | empty
        · exact unkept
        · exact absurd (List.suffix_nil.mp empty) some
      cases rest with
      | nil => exact ⟨[c], [], rfl, List.cons_ne_nil c [], first, alone, .inl rfl⟩
      | cons d rest =>
          cases read : keptLength? (d :: rest) with
          | some length =>
              refine ⟨[c], d :: rest, rfl, List.cons_ne_nil c [], ?_, alone,
                .inr (endsTag_of_keptLength? read).1⟩
              rw [first, pieces, piecesAfter, read]
              rfl
          | none =>
              obtain ⟨plain, behind, whole, -, others, free, stops⟩ :=
                ih (List.cons_ne_nil d rest) read
              refine ⟨c :: plain, behind, congrArg (c :: ·) whole, List.cons_ne_nil c plain, ?_, ?_,
                stops⟩
              · rw [first, others]
                rfl
              · intro here suffix some
                rcases List.suffix_cons_iff.mp suffix with rfl | later
                · rwa [List.cons_append, ← whole]
                · exact free here later some

theorem escapeRule_kept (own : IsTag content ∨ IsComment content) (rest : List Char) :
    escapeRule (content ++ rest) = some (content.length, content) := by
  rw [escapeRule, keptLength?_append own]
  dsimp only
  rw [List.take_left]

theorem escapeRule_of_unkept (unkept : keptLength? text = none) :
    escapeRule text = escapeSign text := by
  rw [escapeRule, unkept]

/-- The plain pieces and the others are escaped in one pass over the text. -/
theorem escapeText_eq_substitute (text : List Char) :
    escapeText text = Text.substitute escapeRule text := by
  induction length : text.length using Nat.strong_induction_on generalizing text with
  | _ length ih =>
      subst length
      by_cases nonempty : text = []
      · subst nonempty
        rfl
      unfold escapeText at ih ⊢
      cases read : keptLength? text with
      | some length =>
          obtain ⟨content, rest, rfl, own, -⟩ := keptLength?_eq_some_iff.mp read
          have shorter := length_lt_append (kept_ne_nil own) rest
          rw [pieces_kept own, List.flatMap_cons, ih _ shorter rest rfl,
            Text.substitute_taken (kept_ne_nil own) (escapeRule_kept own rest)]
          rfl
      | none =>
          obtain ⟨plain, behind, rfl, some, split, free, stops⟩ := exists_plain nonempty read
          have shorter := length_lt_append some behind
          rw [split, List.flatMap_cons, ih _ shorter behind rfl]
          refine (Text.substituteAfter_append_of_agrees (Nat.zero_le _) ?_).symm
          intro here suffix some
          rw [escapeRule_of_unkept (free here suffix some)]
          have absent : ∀ reference, IsReference reference → '<' ∉ reference :=
            fun _ => not_mem_reference (by decide) (by decide) (by decide)
          rcases stops with rfl | opens
          · rw [List.append_nil]
            exact ⟨rfl, (escapeSign_append_cons absent some []).2⟩
          · obtain ⟨rest, rfl⟩ := List.head?_eq_some_iff.mp opens
            exact escapeSign_append_cons absent some rest

/-! ## Reading a text -/

/-- A part of a text, as escaping sees it. -/
inductive Lexeme where
  /-- A tag or a comment. -/
  | kept (content : List Char)
  | reference (content : List Char)
  | char (c : Char)
  deriving Repr, DecidableEq

/-- What escaping writes for a part. -/
def Lexeme.written : Lexeme → List Char
  | .kept content => content
  | .reference content => content
  | .char c => escapedChar c

/-- The part that is written for a part. -/
def Lexeme.escaped : Lexeme → Lexeme
  | .char c => if escapedChar c = [c] then .char c else .reference (escapedChar c)
  | other => other

/-- Reads a text from the left. A character stands for itself where no tag, comment or reference
begins with it. -/
inductive LexedAs : List Char → List Lexeme → Prop where
  | nil : LexedAs [] []
  | kept {content rest : List Char} {lexemes : List Lexeme}
      (own : IsTag content ∨ IsComment content) (later : LexedAs rest lexemes) :
      LexedAs (content ++ rest) (.kept content :: lexemes)
  | reference {content rest : List Char} {lexemes : List Lexeme} (own : IsReference content)
      (later : LexedAs rest lexemes) : LexedAs (content ++ rest) (.reference content :: lexemes)
  | char {c : Char} {rest : List Char} {lexemes : List Lexeme}
      (unkept : ∀ content, IsTag content ∨ IsComment content → ¬ content <+: c :: rest)
      (unread : ∀ content, IsReference content → ¬ content <+: c :: rest)
      (later : LexedAs rest lexemes) : LexedAs (c :: rest) (.char c :: lexemes)

theorem isReference_escapedChar (sign : escapedChar c ≠ [c]) : IsReference (escapedChar c) := by
  unfold escapedChar at sign ⊢
  split
  · exact @IsReference.named 'a' ['m', 'p'] (by decide) (by decide)
  · split
    · exact @IsReference.named 'l' ['t'] (by decide) (by decide)
    · split
      · exact @IsReference.named 'g' ['t'] (by decide) (by decide)
      · simp_all

theorem ne_of_escapedChar_eq (same : escapedChar c = [c]) : c ≠ '&' ∧ c ≠ '<' ∧ c ≠ '>' := by
  refine ⟨?_, ?_, ?_⟩
  all_goals
    rintro rfl
    exact absurd same (by decide)

theorem keptLength?_eq_none_iff : keptLength? text = none ↔
    ∀ content, IsTag content ∨ IsComment content → ¬ content <+: text := by
  constructor
  · rintro unkept content own ⟨rest, rfl⟩
    rw [keptLength?_append own] at unkept
    cases unkept
  · intro absent
    cases read : keptLength? text with
    | none => rfl
    | some length =>
        obtain ⟨content, rest, rfl, own, -⟩ := keptLength?_eq_some_iff.mp read
        exact absurd (List.prefix_append content rest) (absent content own)

theorem referenceLength?_eq_none_iff : referenceLength? text = none ↔
    ∀ content, IsReference content → ¬ content <+: text := by
  constructor
  · rintro unread content own ⟨rest, rfl⟩
    rw [referenceLength?_append own] at unread
    cases unread
  · intro absent
    cases read : referenceLength? text with
    | none => rfl
    | some length =>
        obtain ⟨content, rest, rfl, own, -⟩ := referenceLength?_eq_some_iff.mp read
        exact absurd (List.prefix_append content rest) (absent content own)

variable {lexemes others : List Lexeme}

/-- Every text can be read. -/
theorem exists_lexedAs (text : List Char) : ∃ lexemes, LexedAs text lexemes := by
  induction length : text.length using Nat.strong_induction_on generalizing text with
  | _ length ih =>
      subst length
      cases text with
      | nil => exact ⟨[], .nil⟩
      | cons c rest =>
          cases kept : keptLength? (c :: rest) with
          | some length =>
              obtain ⟨content, behind, whole, own, -⟩ := keptLength?_eq_some_iff.mp kept
              rw [whole] at ih ⊢
              obtain ⟨lexemes, later⟩ := ih _ (length_lt_append (kept_ne_nil own) behind) behind rfl
              exact ⟨.kept content :: lexemes, .kept own later⟩
          | none =>
              cases read : referenceLength? (c :: rest) with
              | some length =>
                  obtain ⟨content, behind, whole, own, -⟩ := referenceLength?_eq_some_iff.mp read
                  rw [whole] at ih ⊢
                  obtain ⟨lexemes, later⟩ :=
                    ih _ (length_lt_append (reference_ne_nil own) behind) behind rfl
                  exact ⟨.reference content :: lexemes, .reference own later⟩
              | none =>
                  obtain ⟨lexemes, later⟩ := ih _ (Nat.lt_succ_self _) rest rfl
                  exact ⟨.char c :: lexemes, .char (keptLength?_eq_none_iff.mp kept)
                    (referenceLength?_eq_none_iff.mp read) later⟩

/-- What is kept ends where its own characters say. -/
theorem LexedAs.of_kept (own : IsTag content ∨ IsComment content)
    (lexed : LexedAs (content ++ rest) lexemes) :
    ∃ later, lexemes = .kept content :: later ∧ LexedAs rest later := by
  have read := keptLength?_append own rest
  generalize whole : content ++ rest = text at lexed read
  cases lexed with
  | nil => exact absurd (List.append_eq_nil_iff.mp whole).1 (kept_ne_nil own)
  | @kept other behind later same following =>
      have length : content.length = other.length :=
        Option.some.inj (read.symm.trans (keptLength?_append same behind))
      obtain ⟨rfl, rfl⟩ := List.append_inj whole length
      exact ⟨later, rfl, following⟩
  | @reference other behind later same following =>
      rw [keptLength?_of_reference same] at read
      cases read
  | char unkept => exact absurd (whole ▸ List.prefix_append content rest) (unkept content own)

/-- So does a reference. -/
theorem LexedAs.of_reference (own : IsReference content)
    (lexed : LexedAs (content ++ rest) lexemes) :
    ∃ later, lexemes = .reference content :: later ∧ LexedAs rest later := by
  have read := referenceLength?_append own rest
  have unkept := keptLength?_of_reference own rest
  generalize whole : content ++ rest = text at lexed read unkept
  cases lexed with
  | nil => exact absurd (List.append_eq_nil_iff.mp whole).1 (reference_ne_nil own)
  | @kept other behind later same following =>
      rw [keptLength?_append same] at unkept
      cases unkept
  | @reference other behind later same following =>
      have length : content.length = other.length :=
        Option.some.inj (read.symm.trans (referenceLength?_append same behind))
      obtain ⟨rfl, rfl⟩ := List.append_inj whole length
      exact ⟨later, rfl, following⟩
  | char _ unread => exact absurd (whole ▸ List.prefix_append content rest) (unread content own)

theorem LexedAs.of_char
    (unkept : ∀ content, IsTag content ∨ IsComment content → ¬ content <+: c :: rest)
    (unread : ∀ content, IsReference content → ¬ content <+: c :: rest)
    (lexed : LexedAs (c :: rest) lexemes) :
    ∃ later, lexemes = .char c :: later ∧ LexedAs rest later := by
  generalize whole : c :: rest = text at lexed unkept unread
  cases lexed with
  | nil => cases whole
  | kept own => exact absurd (List.prefix_append _ _) (unkept _ own)
  | reference own => exact absurd (List.prefix_append _ _) (unread _ own)
  | char _ _ following =>
      obtain ⟨rfl, rfl⟩ := List.cons.inj whole
      exact ⟨_, rfl, following⟩

/-- A text is read in one way only. -/
theorem LexedAs.unique (first : LexedAs text lexemes) (second : LexedAs text others) :
    lexemes = others := by
  induction first generalizing others with
  | nil =>
      generalize whole : ([] : List Char) = text at second
      cases second with
      | nil => rfl
      | kept own => exact absurd (List.append_eq_nil_iff.mp whole.symm).1 (kept_ne_nil own)
      | reference own =>
          exact absurd (List.append_eq_nil_iff.mp whole.symm).1 (reference_ne_nil own)
      | char => cases whole
  | kept own _ ih =>
      obtain ⟨later, rfl, following⟩ := second.of_kept own
      exact congrArg _ (ih following)
  | reference own _ ih =>
      obtain ⟨later, rfl, following⟩ := second.of_reference own
      exact congrArg _ (ih following)
  | char unkept unread _ ih =>
      obtain ⟨later, rfl, following⟩ := second.of_char unkept unread
      exact congrArg _ (ih following)

theorem LexedAs.escapeText_eq (lexed : LexedAs text lexemes) :
    escapeText text = lexemes.flatMap Lexeme.written := by
  rw [escapeText_eq_substitute]
  induction lexed with
  | nil => rfl
  | kept own later ih =>
      rw [Text.substitute_taken (kept_ne_nil own) (escapeRule_kept own _), ih]
      rfl
  | @reference content rest lexemes own later ih =>
      have used : escapeRule (content ++ rest) = some (content.length, content) := by
        rw [escapeRule_of_unkept (keptLength?_of_reference own rest), escapeSign_reference own]
      rw [Text.substitute_taken (reference_ne_nil own) used, ih]
      rfl
  | @char c rest lexemes unkept unread later ih =>
      have applied : escapeRule (c :: rest) =
          if escapedChar c = [c] then none else some (1, escapedChar c) := by
        rw [escapeRule_of_unkept (keptLength?_eq_none_iff.mpr unkept),
          escapeSign_cons (referenceLength?_eq_none_iff.mpr unread)]
      rw [List.flatMap_cons, ← ih, Lexeme.written]
      split at applied
      · next same => rw [Text.substitute_kept applied, same, List.singleton_append]
      · have written : Text.substitute escapeRule ([c] ++ rest) = _ :=
          Text.substitute_taken (List.cons_ne_nil c []) applied
        exact written

/-- The escaped text is read as the parts that were written. -/
theorem LexedAs.escaped (lexed : LexedAs text lexemes) :
    LexedAs (lexemes.flatMap Lexeme.written) (lexemes.map Lexeme.escaped) := by
  induction lexed with
  | nil => exact .nil
  | kept own later ih => exact .kept own ih
  | reference own later ih => exact .reference own ih
  | @char c rest lexemes unkept unread later ih =>
      rw [List.flatMap_cons, List.map_cons, Lexeme.written, Lexeme.escaped]
      split
      · next same =>
          obtain ⟨reference, left, -⟩ := ne_of_escapedChar_eq same
          rw [same]
          refine .char ?_ ?_ ih
          · exact keptLength?_eq_none_iff.mp (keptLength?_of_head (by simpa using left))
          · exact referenceLength?_eq_none_iff.mp
              (referenceLength?_of_head (by simpa using reference))
      · next sign => exact .reference (isReference_escapedChar sign) ih

/-- What has no sign that can be escaped begins the escaped text if it begins the text. -/
theorem LexedAs.prefix_iff {start : List Char} (lexed : LexedAs text lexemes)
    (unsigned : ∀ c ∈ start, c ≠ '&' ∧ c ≠ '<' ∧ c ≠ '>') :
    start <+: lexemes.flatMap Lexeme.written ↔ start <+: text := by
  induction start generalizing text lexemes with
  | nil => exact iff_of_true List.nil_prefix List.nil_prefix
  | cons c start ih =>
      obtain ⟨here, others⟩ := List.forall_mem_cons.mp unsigned
      have strange : ∀ {content rest : List Char} {sign : Char}, content.head? = some sign →
          c ≠ sign → ¬ c :: start <+: content ++ rest := by
        intro content rest sign head other starts
        obtain ⟨behind, rfl⟩ := List.head?_eq_some_iff.mp head
        exact other (List.cons_prefix_cons.mp starts).1
      cases lexed with
      | nil => exact iff_of_false (by simp) (by simp)
      | kept own =>
          exact iff_of_false (strange (kept_head own) here.2.1) (strange (kept_head own) here.2.1)
      | reference own =>
          exact iff_of_false (strange (isReference_head own) here.1)
            (strange (isReference_head own) here.1)
      | @char d rest lexemes unkept unread later =>
          rw [List.flatMap_cons, Lexeme.written]
          by_cases same : escapedChar d = [d]
          · rw [same, List.singleton_append, List.cons_prefix_cons, List.cons_prefix_cons,
              ih later others]
          · have head := isReference_head (isReference_escapedChar same)
            refine iff_of_false (strange head here.1) fun starts => ?_
            obtain rfl := (List.cons_prefix_cons.mp starts).1
            exact same (by simp [escapedChar, here])

theorem mem_escapedChar {sign : Char} (member : sign ∈ escapedChar c) :
    sign = c ∨ sign ∈ "&amp;&lt;&gt;".toList := by
  unfold escapedChar at member
  split at member
  · exact .inr (List.mem_append_left "&lt;&gt;".toList member)
  · split at member
    · exact .inr (List.mem_append_right "&amp;".toList (List.mem_append_left "&gt;".toList member))
    · split at member
      · exact .inr (List.mem_append_right "&amp;&lt;".toList member)
      · exact .inl (List.mem_singleton.mp member)

/-- Escaping brings only the characters of its references into a text. -/
theorem mem_escapeText {sign : Char} (member : sign ∈ escapeText text) :
    sign ∈ text ∨ sign ∈ "&amp;&lt;&gt;".toList := by
  obtain ⟨lexemes, lexed⟩ := exists_lexedAs text
  rw [lexed.escapeText_eq] at member
  induction lexed with
  | nil => exact .inl member
  | kept own later ih =>
      rcases List.mem_append.mp member with here | behind
      · exact .inl (List.mem_append_left _ here)
      · exact (ih behind).imp_left (List.mem_append_right _)
  | reference own later ih =>
      rcases List.mem_append.mp member with here | behind
      · exact .inl (List.mem_append_left _ here)
      · exact (ih behind).imp_left (List.mem_append_right _)
  | char unkept unread later ih =>
      rcases List.mem_append.mp member with here | behind
      · refine (mem_escapedChar here).imp_left ?_
        rintro rfl
        exact List.mem_cons_self
      · exact (ih behind).imp_left (List.mem_cons_of_mem _)

theorem Lexeme.written_escaped (lexeme : Lexeme) : lexeme.escaped.written = lexeme.written := by
  cases lexeme with
  | char c =>
      rw [escaped]
      split <;> rfl
  | _ => rfl

theorem ne_of_mem_escaped (member : .char c ∈ lexemes.map Lexeme.escaped) :
    c ≠ '&' ∧ c ≠ '<' ∧ c ≠ '>' := by
  obtain ⟨lexeme, -, written⟩ := List.mem_map.mp member
  cases lexeme with
  | char d =>
      rw [Lexeme.escaped] at written
      split at written
      · next same =>
          cases written
          exact ne_of_escapedChar_eq same
      · cases written
  | _ => cases written

end

/-- A text is read as tags and comments, references and other characters in one way only. Escaping
copies the tags, the comments and the references and writes a reference for each other sign. What it
writes is read as the same tags and comments, with references and characters that are no signs
between them, and escaping it again changes nothing. -/
theorem escapeText_keeps_lexemes (text : List Char) :
    ∃ lexemes, (∀ others, LexedAs text others ↔ others = lexemes) ∧
      escapeText text = lexemes.flatMap Lexeme.written ∧
      LexedAs (escapeText text) (lexemes.map Lexeme.escaped) ∧
      (∀ c, .char c ∈ lexemes.map Lexeme.escaped → c ≠ '&' ∧ c ≠ '<' ∧ c ≠ '>') ∧
      escapeText (escapeText text) = escapeText text := by
  obtain ⟨lexemes, lexed⟩ := exists_lexedAs text
  have once := lexed.escapeText_eq
  have again : LexedAs (escapeText text) (lexemes.map Lexeme.escaped) := once ▸ lexed.escaped
  refine ⟨lexemes, fun others => ⟨fun other => other.unique lexed, fun same => same ▸ lexed⟩, once,
    again, fun c => ne_of_mem_escaped, ?_⟩
  calc escapeText (escapeText text)
      _ = (lexemes.map Lexeme.escaped).flatMap Lexeme.written := again.escapeText_eq
      _ = lexemes.flatMap Lexeme.written := by
        rw [List.flatMap_map]
        exact List.flatMap_congr fun lexeme _ => lexeme.written_escaped
      _ = escapeText text := once.symm

/-- A tag in a comment is part of it, and where no comment ends the sign of its beginning is
escaped. -/
example : escapeText "<!-- <b --> & <!-- <i>&lt;".toList =
    "<!-- <b --> &amp; &lt;!-- <i>&lt;".toList := by decide

end Bindery.Textile
