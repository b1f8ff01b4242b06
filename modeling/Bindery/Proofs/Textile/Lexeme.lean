import Bindery.Proofs.Textile.Rules

/-!
# Lexemes

Tags, comments and references each end where their own characters say, whatever
follows. So a text is read from the left in one way only.
-/

set_option autoImplicit false

namespace Bindery.Textile

/-- A tag has no sign of another tag in it. -/
inductive IsTag : List Char → Prop where
  | opening {letter : Char} {inside : List Char} (first : letter.isAlpha = true)
      (left : '<' ∉ inside) (right : '>' ∉ inside) : IsTag ('<' :: letter :: (inside ++ ['>']))
  | closing {letter : Char} {inside : List Char} (first : letter.isAlpha = true)
      (left : '<' ∉ inside) (right : '>' ∉ inside) :
      IsTag ('<' :: '/' :: letter :: (inside ++ ['>']))

/-- A comment goes up to the first mark that can end it. -/
inductive IsComment : List Char → Prop where
  | intro {inside : List Char} (first : ¬ "-->".toList <:+: inside ++ "--".toList) :
      IsComment ("<!--".toList ++ (inside ++ "-->".toList))

def isHexDigit (c : Char) : Bool :=
  c.isDigit || ('a' ≤ c && c ≤ 'f') || ('A' ≤ c && c ≤ 'F')

/-- A character reference: a name, or a number in decimal or hexadecimal digits. -/
inductive IsReference : List Char → Prop where
  | named {first : Char} {name : List Char} (letter : first.isAlpha = true)
      (others : ∀ c ∈ name, c.isAlphanum = true) : IsReference ('&' :: first :: (name ++ [';']))
  | decimal {digits : List Char} (some : digits ≠ [])
      (each : ∀ c ∈ digits, Text.isDecimalDigit c = true) :
      IsReference ('&' :: '#' :: (digits ++ [';']))
  | hexadecimal {sign : Char} {digits : List Char} (signed : sign = 'x' ∨ sign = 'X')
      (some : digits ≠ []) (each : ∀ c ∈ digits, isHexDigit c = true) :
      IsReference ('&' :: '#' :: sign :: (digits ++ [';']))

section

variable {text rest content inside : List Char} {length : Nat} {sign : Char}

theorem takeWhile_append_cons {test : Char → Bool} (each : ∀ c ∈ text, test c = true)
    (stops : test sign = false) : (text ++ sign :: rest).takeWhile test = text := by
  rw [List.takeWhile_append_of_pos each, List.takeWhile_cons, stops]
  exact List.append_nil text

/-! ## Comments -/

theorem lengthThrough?_append {mark : List Char} (nonempty : mark ≠ [])
    (first : ¬ mark <:+: inside ++ mark.dropLast) (rest : List Char) :
    lengthThrough? mark (inside ++ (mark ++ rest)) = some (inside.length + mark.length) := by
  induction inside with
  | nil =>
      obtain ⟨c, tail, rfl⟩ := List.exists_cons_of_ne_nil nonempty
      have starts : (Text.dropStart? (c :: tail) (c :: (tail ++ rest))).isSome = true :=
        Text.isSome_dropStart?_iff.mpr (List.prefix_append (c :: tail) rest)
      rw [List.nil_append, List.cons_append, lengthThrough?, if_pos starts, List.length_nil,
        Nat.zero_add]
  | cons c inside ih =>
      -- A mark at the head would end before the last character of the mark that is there.
      have absent : ¬ mark <+: c :: (inside ++ (mark ++ rest)) := by
        intro starts
        refine first (List.IsPrefix.isInfix ?_)
        refine List.prefix_of_prefix_length_le starts ?_ ?_
        · rw [List.cons_append, List.prefix_cons_inj, List.prefix_append_right_inj]
          exact (List.dropLast_prefix mark).trans (List.prefix_append mark rest)
        · have := List.length_pos_of_ne_nil nonempty
          simp only [List.length_append, List.length_cons, List.length_dropLast]
          omega
      have later := ih fun found => first (List.infix_cons found)
      rw [List.cons_append, lengthThrough?, if_neg (by rwa [Text.isSome_dropStart?_iff]), later,
        List.length_cons, Option.map_some, Nat.add_right_comm]

theorem exists_of_lengthThrough? {mark : List Char} (nonempty : mark ≠ [])
    (read : lengthThrough? mark text = some length) :
    ∃ inside rest, text = inside ++ (mark ++ rest) ∧ length = inside.length + mark.length ∧
      ¬ mark <:+: inside ++ mark.dropLast := by
  induction text generalizing length with
  | nil => cases read
  | cons c text ih =>
      rw [lengthThrough?] at read
      split at read
      · next starts =>
          obtain rfl := Option.some.inj read
          obtain ⟨rest, whole⟩ := Text.isSome_dropStart?_iff.mp starts
          refine ⟨[], rest, whole.symm, (Nat.zero_add _).symm, fun found => ?_⟩
          have shorter := found.length_le
          have := List.length_pos_of_ne_nil nonempty
          rw [List.nil_append, List.length_dropLast] at shorter
          omega
      · next absent =>
          obtain ⟨shorter, later, rfl⟩ := Option.map_eq_some_iff.mp read
          obtain ⟨inside, rest, rfl, rfl, first⟩ := ih later
          refine ⟨c :: inside, rest, rfl, by rw [List.length_cons]; omega, fun found => ?_⟩
          rw [List.cons_append] at found
          rcases List.infix_cons_iff.mp found with starts | found
          · refine absent (Text.isSome_dropStart?_iff.mpr (starts.trans ?_))
            rw [List.prefix_cons_inj, List.prefix_append_right_inj]
            exact (List.dropLast_prefix mark).trans (List.prefix_append mark rest)
          · exact first found

theorem commentLength?_append (comment : IsComment content) (rest : List Char) :
    commentLength? (content ++ rest) = some content.length := by
  obtain ⟨first⟩ := comment
  rename_i inside
  have opened : Text.dropStart? "<!--".toList
      ("<!--".toList ++ (inside ++ "-->".toList) ++ rest) =
        some (inside ++ ("-->".toList ++ rest)) :=
    Text.dropStart?_eq_some_iff.mpr (by simp only [List.append_assoc])
  have closed : lengthThrough? "-->".toList (inside ++ ("-->".toList ++ rest)) = _ :=
    lengthThrough?_append (by decide) first rest
  rw [commentLength?, opened]
  dsimp only [bind, Option.bind]
  rw [closed]
  simp only [List.length_append]
  rfl

theorem exists_of_commentLength? (read : commentLength? text = some length) :
    ∃ comment rest, text = comment ++ rest ∧ IsComment comment ∧ length = comment.length := by
  obtain ⟨behind, opened, found⟩ := Option.bind_eq_some_iff.mp read
  obtain ⟨shorter, closed, same⟩ := Option.bind_eq_some_iff.mp found
  obtain ⟨inside, rest, rfl, rfl, first⟩ := exists_of_lengthThrough? (by decide) closed
  cases same
  refine ⟨_, rest, ?_, .intro first, ?_⟩
  · rw [Text.dropStart?_eq_some_iff.mp opened]
    simp only [List.append_assoc]
  · simp only [List.length_append]
    rfl

/-! ## Tags -/

theorem tagRestLength?_append {letter : Char} (first : letter.isAlpha = true)
    (left : '<' ∉ inside) (right : '>' ∉ inside) (rest : List Char) :
    tagRestLength? (letter :: (inside ++ '>' :: rest)) = some (inside.length + 2) := by
  have each : ∀ c ∈ inside, (c != '<' && c != '>') = true := by
    intro c member
    have other : c ≠ '<' ∧ c ≠ '>' :=
      ⟨fun same => left (same ▸ member), fun same => right (same ▸ member)⟩
    simpa using other
  have taken : (inside ++ '>' :: rest).takeWhile (fun d => d != '<' && d != '>') = inside :=
    takeWhile_append_cons each (by decide)
  rw [tagRestLength?, if_pos first]
  dsimp only
  rw [taken, List.drop_left]
  rfl

theorem exists_of_tagRestLength? (read : tagRestLength? text = some length) :
    ∃ letter inside rest, text = letter :: (inside ++ '>' :: rest) ∧ letter.isAlpha = true ∧
      '<' ∉ inside ∧ '>' ∉ inside ∧ length = inside.length + 2 := by
  unfold tagRestLength? at read
  split at read
  · next letter behind =>
      split at read
      · next first =>
          dsimp only at read
          split at read
          · next rest found =>
              obtain rfl := Option.some.inj read
              have whole := List.prefix_append_drop
                (List.takeWhile_prefix (l := behind) fun d => d != '<' && d != '>')
              rw [found] at whole
              refine ⟨letter, _, rest, congrArg (letter :: ·) whole, first, ?_, ?_, rfl⟩
              · exact fun member => absurd (List.mem_takeWhile_imp member) (by decide)
              · exact fun member => absurd (List.mem_takeWhile_imp member) (by decide)
          · cases read
      · cases read
  · cases read

theorem tagLength?_append (tag : IsTag content) (rest : List Char) :
    tagLength? (content ++ rest) = some content.length := by
  cases tag with
  | @opening letter inside first left right =>
      have other : letter ≠ '/' := by
        rintro rfl
        exact absurd first (by decide)
      have found := tagRestLength?_append first left right rest
      have whole : '<' :: letter :: (inside ++ ['>']) ++ rest =
          '<' :: letter :: (inside ++ '>' :: rest) := by simp
      rw [whole, tagLength?, found]
      · simp
      · rintro behind same
        exact other (List.cons.inj same).1
  | @closing letter inside first left right =>
      have found := tagRestLength?_append first left right rest
      have whole : '<' :: '/' :: letter :: (inside ++ ['>']) ++ rest =
          '<' :: '/' :: letter :: (inside ++ '>' :: rest) := by simp
      rw [whole, tagLength?, found]
      simp

theorem exists_of_tagLength? (read : tagLength? text = some length) :
    ∃ tag rest, text = tag ++ rest ∧ IsTag tag ∧ length = tag.length := by
  unfold tagLength? at read
  split at read
  · obtain ⟨shorter, found, rfl⟩ := Option.map_eq_some_iff.mp read
    obtain ⟨letter, inside, rest, rfl, first, left, right, rfl⟩ := exists_of_tagRestLength? found
    exact ⟨_, rest, by simp, .closing first left right, by simp⟩
  · obtain ⟨shorter, found, rfl⟩ := Option.map_eq_some_iff.mp read
    obtain ⟨letter, inside, rest, rfl, first, left, right, rfl⟩ := exists_of_tagRestLength? found
    exact ⟨_, rest, by simp, .opening first left right, by simp⟩
  · cases read

/-- What is kept is a comment or a tag. -/
theorem keptLength?_eq_some_iff : keptLength? text = some length ↔
    ∃ kept rest, text = kept ++ rest ∧ (IsTag kept ∨ IsComment kept) ∧ length = kept.length := by
  rw [keptLength?, Option.or_eq_some_iff]
  constructor
  · rintro (comment | ⟨-, tag⟩)
    · obtain ⟨kept, rest, whole, own, same⟩ := exists_of_commentLength? comment
      exact ⟨kept, rest, whole, .inr own, same⟩
    · obtain ⟨kept, rest, whole, own, same⟩ := exists_of_tagLength? tag
      exact ⟨kept, rest, whole, .inl own, same⟩
  · rintro ⟨kept, rest, rfl, tag | comment, rfl⟩
    · refine .inr ⟨?_, tagLength?_append tag rest⟩
      have other : Text.dropStart? "<!--".toList (kept ++ rest) = none := by
        cases tag with
        | @opening letter inside first =>
            have mark : '!' ≠ letter := by
              rintro rfl
              exact absurd first (by decide)
            simp [Text.dropStart?, mark]
        | closing => simp [Text.dropStart?]
      rw [commentLength?, other]
      rfl
    · exact .inl (commentLength?_append comment rest)

/-! ## References -/

theorem referenceNameLength_named {first : Char} {name : List Char} (letter : first.isAlpha = true)
    (others : ∀ c ∈ name, c.isAlphanum = true) (rest : List Char) :
    referenceNameLength (first :: (name ++ ';' :: rest)) = name.length + 1 := by
  have other : first ≠ '#' := by
    rintro rfl
    exact absurd letter (by decide)
  rw [referenceNameLength, if_pos letter, takeWhile_append_cons others (by decide)]
  exact fun _ _ same _ => other same

theorem referenceNameLength_decimal {digits : List Char} (some : digits ≠ [])
    (each : ∀ c ∈ digits, Text.isDecimalDigit c = true) (rest : List Char) :
    referenceNameLength ('#' :: (digits ++ ';' :: rest)) = digits.length + 1 := by
  have taken : (digits ++ ';' :: rest).takeWhile Text.isDecimalDigit = digits :=
    takeWhile_append_cons each (by decide)
  obtain ⟨digit, digits, rfl⟩ := List.exists_cons_of_ne_nil some
  have other : ¬ (digit = 'x' ∨ digit = 'X') := by
    rintro (rfl | rfl)
    · exact absurd (each 'x' List.mem_cons_self) (by decide)
    · exact absurd (each 'X' List.mem_cons_self) (by decide)
  rw [List.cons_append] at taken ⊢
  rw [referenceNameLength, if_neg (by simpa using other)]
  dsimp only
  rw [taken]
  rfl

theorem referenceNameLength_hexadecimal {sign : Char} {digits : List Char}
    (signed : sign = 'x' ∨ sign = 'X') (some : digits ≠ [])
    (each : ∀ c ∈ digits, isHexDigit c = true) (rest : List Char) :
    referenceNameLength ('#' :: sign :: (digits ++ ';' :: rest)) = digits.length + 2 := by
  have taken : (digits ++ ';' :: rest).takeWhile isHexDigit = digits :=
    takeWhile_append_cons each (by decide)
  unfold isHexDigit at taken
  rw [referenceNameLength, if_pos (by simpa using signed)]
  dsimp only
  rw [taken, if_neg (by simpa using some)]

theorem referenceLength?_append (reference : IsReference content) (rest : List Char) :
    referenceLength? (content ++ rest) = some content.length := by
  cases reference with
  | @named first name letter others =>
      have whole : '&' :: first :: (name ++ [';']) ++ rest =
          '&' :: first :: (name ++ ';' :: rest) := by simp
      rw [whole, referenceLength?, referenceNameLength_named letter others]
      simp
  | @decimal digits some each =>
      have whole : '&' :: '#' :: (digits ++ [';']) ++ rest =
          '&' :: '#' :: (digits ++ ';' :: rest) := by simp
      rw [whole, referenceLength?, referenceNameLength_decimal some each]
      simp
  | @hexadecimal sign digits signed some each =>
      have whole : '&' :: '#' :: sign :: (digits ++ [';']) ++ rest =
          '&' :: '#' :: sign :: (digits ++ ';' :: rest) := by simp
      rw [whole, referenceLength?, referenceNameLength_hexadecimal signed some each]
      simp

theorem eq_takeWhile_append {test : Char → Bool} {behind : List Char}
    (found : behind.drop (behind.takeWhile test).length = ';' :: rest) :
    behind = behind.takeWhile test ++ ';' :: rest := by
  rw [← found]
  exact List.prefix_append_drop (List.takeWhile_prefix test)

/-- A name or number makes a reference together with the sign that ends it. -/
theorem isReference_of_referenceNameLength (read : referenceNameLength text = length)
    (named : length ≠ 0) (ends : text.drop length = ';' :: rest) :
    ∃ name, text = name ++ ';' :: rest ∧ name.length = length ∧
      IsReference ('&' :: (name ++ [';'])) := by
  unfold referenceNameLength at read
  split at read
  · next sign behind =>
      split at read
      · next signed =>
          dsimp only at read
          split at read
          · exact absurd read.symm named
          · next some =>
              subst read
              refine ⟨'#' :: sign :: behind.takeWhile isHexDigit, ?_, rfl, ?_⟩
              · exact congrArg ('#' :: sign :: ·) (eq_takeWhile_append ends)
              · exact .hexadecimal (by simpa using signed)
                  (fun empty => some (List.isEmpty_iff.mpr empty))
                  (List.all_eq_true.mp List.all_takeWhile)
      · dsimp only at read
        split at read
        · exact absurd read.symm named
        · next some =>
            subst read
            refine ⟨'#' :: (sign :: behind).takeWhile Text.isDecimalDigit, ?_, rfl, ?_⟩
            · exact congrArg ('#' :: ·) (eq_takeWhile_append ends)
            · exact .decimal (fun empty => some (List.isEmpty_iff.mpr empty))
                (List.all_eq_true.mp List.all_takeWhile)
  · next first behind _ =>
      split at read
      · next letter =>
          subst read
          refine ⟨first :: behind.takeWhile Char.isAlphanum, ?_, rfl, ?_⟩
          · exact congrArg (first :: ·) (eq_takeWhile_append ends)
          · exact .named letter (List.all_eq_true.mp List.all_takeWhile)
      · exact absurd read.symm named
  · exact absurd read.symm named

theorem referenceLength?_eq_some_iff : referenceLength? text = some length ↔
    ∃ reference rest, text = reference ++ rest ∧ IsReference reference ∧
      length = reference.length := by
  constructor
  · intro read
    unfold referenceLength? at read
    split at read
    · next behind =>
        dsimp only at read
        split at read
        · next rest found =>
            split at read
            · cases read
            · next named =>
                obtain rfl := Option.some.inj read
                obtain ⟨name, whole, length, own⟩ :=
                  isReference_of_referenceNameLength rfl named found
                refine ⟨_, rest, ?_, own, ?_⟩
                · rw [whole]
                  simp
                · simp [length]
        · cases read
    · cases read
  · rintro ⟨reference, rest, rfl, own, rfl⟩
    exact referenceLength?_append own rest

end

end Bindery.Textile
