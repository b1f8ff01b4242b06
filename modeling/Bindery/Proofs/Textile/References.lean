import Bindery.Proofs.Textile.Escape
import Bindery.Proofs.Textile.FootnoteMarkup

/-!
# References in prose

A reference takes the character before it along, so that the number directly behind a
reference has none left to take and stays as it is written. In prose the other rules
leave the text alone, and the links are those that the references were given.
-/

set_option autoImplicit false

namespace Bindery.Textile

/-- What is found directly behind the visible characters of a text, in order. -/
def behindVisible {α : Type} (find : List Char → Option α) : List Char → List α
  | [] => []
  | c :: rest => (if Text.isBlank c then none else find rest).toList ++ behindVisible find rest

/-- The numbers in brackets that stand directly behind a visible character. -/
def references (text : List Char) : List (List Char) := behindVisible bracketed? text

/-- The number in brackets at the start of the text, if another one follows it directly. -/
def followed? (text : List Char) : Option (List Char) := do
  let digits ← bracketed? text
  let _ ← bracketed? (text.drop (digits.length + 2))
  return digits

/-- The references that another one follows directly. -/
def followedReferences (text : List Char) : List (List Char) := behindVisible followed? text

/-- The number of the footnote link at the start of a piece of markup. -/
def footnoteLink? (markup : List Char) : Option (List Char) := do
  let rest ← Text.dropStart? "<sup class=\"footnote\" id=\"fnr".toList markup
  let digits := rest.takeWhile Text.isDecimalDigit
  if (Text.dropStart? (footnoteReference digits) markup).isSome then some digits else none

/-- The numbers of the footnote links in a piece of markup, in order. -/
def footnoteLinks : List Char → List (List Char)
  | [] => []
  | c :: rest => (footnoteLink? (c :: rest)).toList ++ footnoteLinks rest

/-- Prose has no tags, quotation marks or marks of phrases. -/
def IsProse (line : List Char) : Prop := ∀ sign ∈ ['<', '"', '@', '*', '_'], sign ∉ line

instance : DecidablePred IsProse := fun line =>
  inferInstanceAs (Decidable (∀ sign ∈ ['<', '"', '@', '*', '_'], sign ∉ line))

def inBrackets (digits : List Char) : List Char := '[' :: (digits ++ [']'])

/-- Some decimal digits. -/
structure IsNumber (digits : List Char) : Prop where
  some : digits ≠ []
  decimal : ∀ digit ∈ digits, Text.isDecimalDigit digit = true

section

variable {text rest front digits line : List Char} {c : Char}

/-! ## Numbers in brackets -/

theorem IsNumber.not_mem (number : IsNumber digits) {sign : Char}
    (other : Text.isDecimalDigit sign = false) : sign ∉ digits :=
  Footnote.not_mem_of_decimal other number.decimal

theorem bracketed?_inBrackets (number : IsNumber digits) (rest : List Char) :
    bracketed? (inBrackets digits ++ rest) = some digits := by
  have whole : inBrackets digits ++ rest = '[' :: (digits ++ ']' :: rest) := by
    simp [inBrackets]
  rw [whole, bracketed?, takeWhile_append_cons number.decimal (by decide), List.drop_left]
  exact if_neg (by simpa using number.some)

theorem bracketed?_eq_some_iff :
    bracketed? text = some digits ↔ IsNumber digits ∧ inBrackets digits <+: text := by
  constructor
  · intro read
    obtain ⟨decimal, rest, rfl⟩ := eq_of_bracketed? read
    refine ⟨⟨?_, decimal⟩, rest, by simp [inBrackets]⟩
    rintro rfl
    exact absurd read (by simp [bracketed?, show Text.isDecimalDigit ']' = false by decide])
  · rintro ⟨number, rest, rfl⟩
    exact bracketed?_inBrackets number rest

theorem footnoteRule_eq_some_iff {use : Nat × List Char} : footnoteRule text = some use ↔
    ∃ c digits rest, text = c :: (inBrackets digits ++ rest) ∧ Text.isBlank c = false ∧
      IsNumber digits ∧ use = (digits.length + 3, c :: footnoteReference digits) := by
  constructor
  · intro used
    unfold footnoteRule at used
    split at used
    · next c behind =>
        split at used
        · cases used
        · next visible =>
            obtain ⟨digits, read, rfl⟩ := Option.map_eq_some_iff.mp used
            obtain ⟨number, rest, rfl⟩ := bracketed?_eq_some_iff.mp read
            exact ⟨c, digits, rest, rfl, Bool.not_eq_true _ ▸ visible, number, rfl⟩
    · cases used
  · rintro ⟨c, digits, rest, rfl, visible, number, rfl⟩
    rw [footnoteRule, visible, bracketed?_inBrackets number]
    rfl

/-! ## What stands behind visible characters -/

/-- What is found begins with a bracket. -/
def OpensBracket {α : Type} (find : List Char → Option α) : Prop :=
  ∀ text, text.head? ≠ some '[' → find text = none

theorem opensBracket_bracketed? : OpensBracket bracketed? := by
  intro text other
  cases read : bracketed? text with
  | none => rfl
  | some digits =>
      obtain ⟨-, rest, rfl⟩ := bracketed?_eq_some_iff.mp read
      exact absurd rfl other

theorem opensBracket_followed? : OpensBracket followed? := by
  intro text other
  rw [followed?, opensBracket_bracketed? text other]
  rfl

theorem followed?_inBrackets (number : IsNumber digits) (rest : List Char) :
    followed? (inBrackets digits ++ rest) = (bracketed? rest).map fun _ => digits := by
  have behind : (inBrackets digits ++ rest).drop (digits.length + 2) = rest := by
    simp [inBrackets]
  rw [followed?, bracketed?_inBrackets number]
  dsimp only [bind, Option.bind]
  rw [behind]
  cases bracketed? rest <;> rfl

theorem behindVisible_append {α : Type} {find : List Char → Option α} (opens : OpensBracket find)
    (plain : '[' ∉ front) (other : c ≠ '[') (visible : Text.isBlank c = false) :
    behindVisible find (front ++ c :: rest) = (find rest).toList ++ behindVisible find rest := by
  induction front with
  | nil => simp [behindVisible, visible]
  | cons d front ih =>
      rw [List.mem_cons, not_or] at plain
      have next : (front ++ c :: rest).head? ≠ some '[' := by
        cases front with
        | nil => simpa using other
        | cons e front =>
            rw [List.mem_cons, not_or] at plain
            simpa using Ne.symm plain.2.1
      rw [List.cons_append, behindVisible, opens _ next, ih plain.2]
      split <;> rfl

/-- Behind a number in brackets the next character that something can stand behind is the last. -/
theorem behindVisible_inBrackets {α : Type} {find : List Char → Option α}
    (opens : OpensBracket find) (number : IsNumber digits) (visible : Text.isBlank c = false) :
    behindVisible find (c :: (inBrackets digits ++ rest)) =
      (find (inBrackets digits ++ rest)).toList ++
        ((find rest).toList ++ behindVisible find rest) := by
  have whole : inBrackets digits ++ rest = '[' :: (digits ++ ']' :: rest) := by
    simp [inBrackets]
  have closing : behindVisible find (digits ++ ']' :: rest) =
      (find rest).toList ++ behindVisible find rest :=
    behindVisible_append opens (number.not_mem (by decide)) (by decide) (by decide)
  have first : (digits ++ ']' :: rest).head? ≠ some '[' := by
    obtain ⟨digit, others, rfl⟩ := List.exists_cons_of_ne_nil number.some
    have other : digit ≠ '[' := by
      rintro rfl
      have absent : '[' ∉ '[' :: others := number.not_mem (by decide)
      exact absent List.mem_cons_self
    simpa using other
  rw [behindVisible, visible, whole, behindVisible, closing, opens _ first]
  simp

/-! ## What the rule takes -/

/-- The numbers of the references that the rule finds in a text. -/
def foundReferences (text : List Char) : List (List Char) :=
  (Text.uses footnoteRule text).filterMap fun here => bracketed? here.tail

theorem foundReferences_kept (kept : footnoteRule (c :: rest) = none) :
    foundReferences (c :: rest) = foundReferences rest ∧
      references (c :: rest) = references rest ∧
      followedReferences (c :: rest) = followedReferences rest := by
  have nothing : (if Text.isBlank c then none else bracketed? rest) = none := by
    rw [footnoteRule] at kept
    split
    · rfl
    · next visible =>
        rw [if_neg visible] at kept
        exact Option.map_eq_none_iff.mp kept
  have unfollowed : (if Text.isBlank c then none else followed? rest) = none := by
    split
    · rfl
    · next visible =>
        rw [if_neg visible] at nothing
        rw [followed?, nothing]
        rfl
  refine ⟨?_, ?_, ?_⟩
  · rw [foundReferences, Text.uses_kept kept]
    rfl
  · rw [references, behindVisible, nothing]
    rfl
  · rw [followedReferences, behindVisible, unfollowed]
    rfl

theorem foundReferences_taken (visible : Text.isBlank c = false) (number : IsNumber digits)
    (rest : List Char) :
    foundReferences (c :: (inBrackets digits ++ rest)) = digits :: foundReferences rest ∧
      references (c :: (inBrackets digits ++ rest)) =
        digits :: ((bracketed? rest).toList ++ references rest) ∧
      followedReferences (c :: (inBrackets digits ++ rest)) =
        ((bracketed? rest).map fun _ => digits).toList ++
          ((followed? rest).toList ++ followedReferences rest) := by
  have read := bracketed?_inBrackets number rest
  have used : footnoteRule (c :: inBrackets digits ++ rest) =
      some ((c :: inBrackets digits).length, c :: footnoteReference digits) := by
    rw [footnoteRule_eq_some_iff]
    exact ⟨c, digits, rest, rfl, visible, number, by simp [inBrackets]⟩
  refine ⟨?_, ?_, ?_⟩
  · rw [← List.cons_append, foundReferences, Text.uses_taken (List.cons_ne_nil _ _) used,
      List.cons_append, List.filterMap_cons, List.tail_cons, read]
    rfl
  · rw [references, behindVisible_inBrackets opensBracket_bracketed? number visible, read]
    rfl
  · rw [followedReferences, behindVisible_inBrackets opensBracket_followed? number visible,
      followed?_inBrackets number]
    rfl

theorem usedAs_footnoteRule_visible : Text.UsedAs footnoteRule fun taken written _ =>
    ∃ c digits, Text.isBlank c = false ∧ IsNumber digits ∧ taken = c :: inBrackets digits ∧
      written = c :: footnoteReference digits := by
  intro text use used
  obtain ⟨c, digits, rest, rfl, visible, number, rfl⟩ := footnoteRule_eq_some_iff.mp used
  exact ⟨c :: inBrackets digits, rest, rfl, List.cons_ne_nil _ _, by simp [inBrackets], c, digits,
    visible, number, rfl, rfl⟩

/-- The references that are found are all references exactly if none follows another directly. -/
theorem foundReferences_scan (text : List Char) :
    (foundReferences text).Sublist (references text) ∧
      (foundReferences text = references text ↔ followedReferences text = []) := by
  refine usedAs_footnoteRule_visible.induction (motive := fun text _ =>
    (foundReferences text).Sublist (references text) ∧
      (foundReferences text = references text ↔ followedReferences text = [])) ?_ ?_ ?_ text
  · exact ⟨List.Sublist.slnil, iff_of_true rfl rfl⟩
  · intro c rest kept ih
    obtain ⟨found, all, followed⟩ := foundReferences_kept kept
    rwa [found, all, followed]
  · intro taken rest written _ how ih
    obtain ⟨c, digits, visible, number, rfl, -⟩ := how
    obtain ⟨within, exactly⟩ := ih
    obtain ⟨found, all, followed⟩ := foundReferences_taken visible number rest
    rw [List.cons_append, found, all, followed]
    cases next : bracketed? rest with
    | none =>
        have unfollowed : followed? rest = none := by
          rw [followed?, next]
          rfl
        rw [unfollowed]
        exact ⟨within.cons_cons digits, by simpa using exactly⟩
    | some other =>
        -- The number behind the reference is a reference too, and it is not found.
        refine ⟨(within.trans (List.sublist_cons_self other _)).cons_cons digits,
          iff_of_false ?_ (List.cons_ne_nil _ _)⟩
        intro same
        have length := congrArg List.length same
        have shorter := within.length_le
        simp only [Option.toList, List.length_cons, List.length_append, List.length_nil] at length
        omega

/-! ## Escaped prose -/

theorem unsigned_inBrackets (number : IsNumber digits) :
    ∀ c ∈ inBrackets digits, c ≠ '&' ∧ c ≠ '<' ∧ c ≠ '>' := by
  have absent : ∀ sign ∈ ['&', '<', '>'], sign ∉ inBrackets digits := by
    intro sign among
    have other : sign ≠ '[' ∧ sign ≠ ']' ∧ Text.isDecimalDigit sign = false := by
      revert sign
      decide
    simp [inBrackets, other, number.not_mem other.2.2]
  intro c member
  refine ⟨?_, ?_, ?_⟩
  all_goals
    rintro rfl
    exact absent _ (by decide) member

theorem followed?_eq_some_iff : followed? text = some digits ↔
    IsNumber digits ∧ ∃ other, IsNumber other ∧ inBrackets digits ++ inBrackets other <+: text := by
  constructor
  · intro read
    obtain ⟨found, first, later⟩ := Option.bind_eq_some_iff.mp read
    obtain ⟨other, second, same⟩ := Option.bind_eq_some_iff.mp later
    obtain rfl := Option.some.inj same
    obtain ⟨number, rest, rfl⟩ := bracketed?_eq_some_iff.mp first
    have behind : (inBrackets found ++ rest).drop (found.length + 2) = rest := by
      simp [inBrackets]
    obtain ⟨numbered, more, rfl⟩ := bracketed?_eq_some_iff.mp (behind ▸ second)
    exact ⟨number, other, numbered, more, List.append_assoc _ _ _⟩
  · rintro ⟨number, other, numbered, rest, rfl⟩
    rw [List.append_assoc, followed?_inBrackets number, bracketed?_inBrackets numbered]
    rfl

theorem bracketed?_escaped {lexemes : List Lexeme} (lexed : LexedAs text lexemes) :
    bracketed? (lexemes.flatMap Lexeme.written) = bracketed? text := by
  ext digits
  rw [bracketed?_eq_some_iff, bracketed?_eq_some_iff]
  exact and_congr_right fun number => lexed.prefix_iff (unsigned_inBrackets number)

theorem followed?_escaped {lexemes : List Lexeme} (lexed : LexedAs text lexemes) :
    followed? (lexemes.flatMap Lexeme.written) = followed? text := by
  ext digits
  rw [followed?_eq_some_iff, followed?_eq_some_iff]
  refine and_congr_right fun number => exists_congr fun other => and_congr_right fun numbered => ?_
  apply lexed.prefix_iff
  intro c member
  rcases List.mem_append.mp member with first | second
  · exact unsigned_inBrackets number c first
  · exact unsigned_inBrackets numbered c second

theorem behindVisible_reference {α : Type} {find : List Char → Option α}
    (opens : OpensBracket find) (reference : IsReference front) :
    behindVisible find (front ++ rest) = (find rest).toList ++ behindVisible find rest := by
  have absent : '[' ∉ front := not_mem_reference (by decide) (by decide) (by decide) reference
  obtain ⟨front, rfl⟩ := exists_of_isReference reference
  rw [List.append_assoc, List.singleton_append]
  refine behindVisible_append opens (fun member => absent ?_) (by decide) (by decide)
  exact List.mem_append_left _ member

/-- The characters of a reference are visible, and so is the sign that it is written for. -/
theorem behindVisible_escaped {α : Type} {find : List Char → Option α} {lexemes : List Lexeme}
    (opens : OpensBracket find)
    (same : ∀ {text lexemes}, LexedAs text lexemes →
      find (lexemes.flatMap Lexeme.written) = find text)
    (lexed : LexedAs text lexemes) (plain : '<' ∉ text) :
    behindVisible find (lexemes.flatMap Lexeme.written) = behindVisible find text := by
  induction lexed with
  | nil => rfl
  | kept own =>
      have first := List.mem_of_mem_head? (kept_head own)
      exact absurd (List.mem_append_left _ first) plain
  | reference own later ih =>
      rw [List.mem_append, not_or] at plain
      rw [List.flatMap_cons, Lexeme.written, behindVisible_reference opens own,
        behindVisible_reference opens own, ih plain.2, same later]
  | @char c rest lexemes unkept unread later ih =>
      rw [List.mem_cons, not_or] at plain
      rw [List.flatMap_cons, Lexeme.written]
      by_cases kept : escapedChar c = [c]
      · rw [kept, List.singleton_append, behindVisible, behindVisible, ih plain.2, same later]
      · have sign : c = '&' ∨ c = '<' ∨ c = '>' := by
          by_contra other
          rw [not_or, not_or] at other
          exact kept (by simp [escapedChar, other])
        have visible : c ≠ '[' ∧ Text.isBlank c = false := by
          rcases sign with rfl | rfl | rfl <;> decide
        have alone : behindVisible find (c :: rest) = _ :=
          behindVisible_append opens List.not_mem_nil visible.1 visible.2
        rw [behindVisible_reference opens (isReference_escapedChar kept), alone, ih plain.2,
          same later]

/-! ## Rendered prose -/

theorem footnoteLink?_of_unopened (unopened : Text.dropStart?
    "<sup class=\"footnote\" id=\"fnr".toList text = none) : footnoteLink? text = none := by
  rw [footnoteLink?, unopened]
  rfl

theorem footnoteLinks_append_of_clear
    (clear : Footnote.isClear "<sup class=\"footnote\" id=\"fnr".toList front = true)
    (rest : List Char) : footnoteLinks (front ++ rest) = footnoteLinks rest := by
  induction front with
  | nil => rfl
  | cons c front ih =>
      rw [Footnote.isClear, Bool.and_eq_true, Bool.not_eq_true', Bool.or_eq_false_iff] at clear
      obtain ⟨⟨shorter, longer⟩, clear⟩ := clear
      have unopened := Footnote.dropStart?_append_eq_none rest shorter longer
      rw [List.cons_append] at unopened ⊢
      rw [footnoteLinks, footnoteLink?_of_unopened unopened, ih clear]
      rfl

theorem footnoteLinks_append_of_not_mem (absent : '<' ∉ front) (rest : List Char) :
    footnoteLinks (front ++ rest) = footnoteLinks rest := by
  induction front with
  | nil => rfl
  | cons c front ih =>
      rw [List.mem_cons, not_or] at absent
      have unopened : Text.dropStart? "<sup class=\"footnote\" id=\"fnr".toList
          (c :: (front ++ rest)) = none := if_neg absent.1
      rw [List.cons_append, footnoteLinks, footnoteLink?_of_unopened unopened, ih absent.2]
      rfl

/-- What a footnote link goes on with behind the number of its id. -/
def behindId (digits : List Char) : List Char :=
  "><a href=\"#fn".toList ++ (digits ++ ("\">".toList ++ (digits ++ "</a></sup>".toList)))

theorem footnoteReference_split (digits : List Char) : footnoteReference digits =
    "<sup class=\"footnote\" id=\"fnr".toList ++ (digits ++ '"' :: behindId digits) := by
  have split (opening middle closing last : List Char) :
      opening ++ digits ++ ('"' :: middle) ++ digits ++ closing ++ digits ++ last =
        opening ++ (digits ++ '"' :: (middle ++ (digits ++ (closing ++ (digits ++ last))))) := by
    simp only [List.append_assoc, List.cons_append]
  exact split "<sup class=\"footnote\" id=\"fnr".toList "><a href=\"#fn".toList "\">".toList
    "</a></sup>".toList

theorem footnoteLink?_reference (number : IsNumber digits) (rest : List Char) :
    footnoteLink? (footnoteReference digits ++ rest) = some digits := by
  have whole : (Text.dropStart? (footnoteReference digits)
      (footnoteReference digits ++ rest)).isSome = true :=
    Text.isSome_dropStart?_iff.mpr (List.prefix_append _ rest)
  have opened : Text.dropStart? "<sup class=\"footnote\" id=\"fnr".toList
      (footnoteReference digits ++ rest) = some (digits ++ '"' :: (behindId digits ++ rest)) := by
    rw [Text.dropStart?_eq_some_iff, footnoteReference_split]
    simp only [List.append_assoc, List.cons_append]
  have taken :
      (digits ++ '"' :: (behindId digits ++ rest)).takeWhile Text.isDecimalDigit = digits :=
    takeWhile_append_cons number.decimal (by decide)
  rw [footnoteLink?, opened]
  dsimp only [bind, Option.bind]
  rw [taken, if_pos whole]

theorem footnoteLinks_behindId (number : IsNumber digits) (rest : List Char) :
    footnoteLinks (behindId digits ++ rest) = footnoteLinks rest := by
  have absent : '<' ∉ digits := number.not_mem (by decide)
  have address : Footnote.isClear "<sup class=\"footnote\" id=\"fnr".toList
      "><a href=\"#fn".toList = true := by decide
  have quote : '<' ∉ "\">".toList := by decide
  have closing : Footnote.isClear "<sup class=\"footnote\" id=\"fnr".toList
      "</a></sup>".toList = true := by decide
  unfold behindId
  rw [List.append_assoc, footnoteLinks_append_of_clear address, List.append_assoc,
    footnoteLinks_append_of_not_mem absent, List.append_assoc,
    footnoteLinks_append_of_not_mem quote, List.append_assoc,
    footnoteLinks_append_of_not_mem absent, footnoteLinks_append_of_clear closing]

theorem footnoteLinks_reference (number : IsNumber digits) (rest : List Char) :
    footnoteLinks (footnoteReference digits ++ rest) = digits :: footnoteLinks rest := by
  have read := footnoteLink?_reference number rest
  obtain ⟨name, opening, unopened⟩ : ∃ name : List Char,
      "<sup class=\"footnote\" id=\"fnr".toList = '<' :: name ∧ '<' ∉ name :=
    ⟨_, rfl, by decide⟩
  have absent : '<' ∉ digits := number.not_mem (by decide)
  have unsigned : '<' ∉ name ++ (digits ++ ['"']) := by simp [unopened, absent]
  have whole : footnoteReference digits ++ rest =
      '<' :: (name ++ (digits ++ ['"']) ++ (behindId digits ++ rest)) := by
    rw [footnoteReference_split, opening]
    simp only [List.append_assoc, List.cons_append, List.nil_append]
  rw [whole] at read ⊢
  rw [footnoteLinks, read, footnoteLinks_append_of_not_mem unsigned, footnoteLinks_behindId number]
  rfl

/-- The links in the text are those of the references that are found. -/
theorem footnoteLinks_substitute (plain : '<' ∉ text) :
    footnoteLinks (Text.substitute footnoteRule text) = foundReferences text := by
  revert plain
  refine usedAs_footnoteRule_visible.induction (motive := fun text written =>
    '<' ∉ text → footnoteLinks written = foundReferences text) ?_ ?_ ?_ text
  · exact fun _ => rfl
  · intro c rest kept later plain
    rw [List.mem_cons, not_or] at plain
    have alone : '<' ∉ [c] := by simpa using plain.1
    rw [(foundReferences_kept kept).1, ← later plain.2]
    exact footnoteLinks_append_of_not_mem alone _
  · intro taken rest written _ how later plain
    obtain ⟨c, digits, visible, number, rfl, rfl⟩ := how
    rw [List.cons_append, List.mem_cons, List.mem_append, not_or, not_or] at plain
    have alone : '<' ∉ [c] := by simpa using plain.1
    rw [List.cons_append, List.cons_append, (foundReferences_taken visible number _).1,
      ← later plain.2.2, ← footnoteLinks_reference number]
    exact footnoteLinks_append_of_not_mem alone _

/-- No sign of a link begins with a quotation mark of a footnote link. -/
theorem unlinked_substitute (unquoted : '"' ∉ text) :
    ¬ linkSign <:+: Text.substitute footnoteRule text := by
  revert unquoted
  refine usedAs_footnoteRule_visible.induction (motive := fun text written =>
    '"' ∉ text → ¬ linkSign <:+: written) ?_ ?_ ?_ text
  · exact fun _ => by decide
  · intro c rest _ later unquoted found
    rw [List.mem_cons, not_or] at unquoted
    rcases List.infix_cons_iff.mp found with starts | found
    · exact unquoted.1 (List.cons_prefix_cons.mp starts).1
    · exact later unquoted.2 found
  · intro taken rest written _ how later unquoted found
    obtain ⟨c, digits, visible, number, rfl, rfl⟩ := how
    rw [List.cons_append, List.mem_cons, List.mem_append, not_or, not_or] at unquoted
    have apart : ':' ∉ footnoteReference digits :=
      not_mem_footnoteReference (by decide) (by decide) number.decimal
    obtain ⟨front, ends⟩ : ∃ front, footnoteReference digits = front ++ ['>'] :=
      ⟨_, (List.append_assoc _ "</a></sup".toList ['>']).symm⟩
    rw [ends] at apart found
    rw [← List.cons_append, List.append_assoc, List.singleton_append,
      Text.infix_append_cons_iff (by decide)] at found
    rcases found with inside | found
    · rcases List.infix_cons_iff.mp inside with starts | inside
      · exact unquoted.1 (List.cons_prefix_cons.mp starts).1
      · exact apart (List.mem_append_left _ (inside.subset (by decide)))
    · exact later unquoted.2.2 found

theorem renderInline_prose (prose : IsProse line) :
    renderInline line = Text.substitute footnoteRule (escapeText line) := by
  have absent : ∀ sign ∈ ['"', '@', '*', '_'], sign ∉ escapeText line := by
    intro sign among
    have other : sign ∈ ['<', '"', '@', '*', '_'] ∧ sign ∉ "&amp;&lt;&gt;".toList := by
      revert sign
      decide
    intro member
    exact (mem_escapeText member).elim (prose sign other.1) other.2
  have unmarked : ∀ sign ∈ ['@', '*', '_'],
      sign ∉ Text.substitute footnoteRule (escapeText line) := by
    intro sign among
    have other : Text.isDecimalDigit sign = false ∧ sign ∉ footnoteReference [] := by
      revert sign
      decide
    refine (usedAs_footnoteRule_visible.imp ?_).not_mem (absent sign (List.mem_cons_of_mem _ among))
    intro taken written _ how unsigned
    obtain ⟨c, digits, -, number, rfl, rfl⟩ := how
    rw [List.mem_cons, not_or] at unsigned
    exact List.not_mem_cons_of_ne_of_not_mem unsigned.1
      (not_mem_footnoteReference other.1 other.2 number.decimal)
  rw [renderInline, substitute_linkRule_eq_self (unlinked_substitute (absent '"' (by decide))),
    substitute_phraseRule_eq_self "code" (unmarked '@' (by decide)),
    substitute_phraseRule_eq_self "strong" (unmarked '*' (by decide)),
    emphasise_eq_self (unmarked '_' (by decide))]

end

/-- The footnote links of a line of prose are among its references, in their order, and they are all
of them exactly if no reference stands directly behind another one. -/
theorem footnoteLinks_prose_iff {line : List Char} (prose : IsProse line) :
    (footnoteLinks (renderInline line)).Sublist (references line) ∧
      (footnoteLinks (renderInline line) = references line ↔ followedReferences line = []) := by
  have plain : '<' ∉ line := prose '<' (by decide)
  obtain ⟨lexemes, lexed⟩ := exists_lexedAs line
  have all : references (escapeText line) = references line := by
    rw [lexed.escapeText_eq]
    exact behindVisible_escaped opensBracket_bracketed? bracketed?_escaped lexed plain
  have followed : followedReferences (escapeText line) = followedReferences line := by
    rw [lexed.escapeText_eq]
    exact behindVisible_escaped opensBracket_followed? followed?_escaped lexed plain
  have clean : '<' ∉ escapeText line := by
    intro member
    exact (mem_escapeText member).elim plain (by decide)
  rw [renderInline_prose prose, footnoteLinks_substitute clean, ← all, ← followed]
  exact foundReferences_scan (escapeText line)

theorem footnoteLinks_prose_apart :
    IsProse "one[1], two[2]".toList ∧ followedReferences "one[1], two[2]".toList = [] ∧
      footnoteLinks (renderInline "one[1], two[2]".toList) = [['1'], ['2']] := by
  have prose : IsProse "one[1], two[2]".toList := by decide
  have apart : followedReferences "one[1], two[2]".toList = [] := by decide
  exact ⟨prose, apart, (footnoteLinks_prose_iff prose).2.mpr apart⟩

/-- A second reference directly behind the first stays as it is written. -/
theorem footnoteLinks_followed :
    IsProse "a[1][2]".toList ∧ references "a[1][2]".toList = [['1'], ['2']] ∧
      footnoteLinks (renderInline "a[1][2]".toList) = [['1']] := by
  refine ⟨by decide, by decide, ?_⟩
  decide +kernel

end Bindery.Textile
