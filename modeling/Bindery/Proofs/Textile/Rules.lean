import Bindery.Proofs.Text.Substitution
import Bindery.Proofs.Text.Trim
import Bindery.Proofs.Text.Mark
import Bindery.Textile.Phrase

/-!
# What the rules within a line take

A rule takes a stretch of the text that begins and ends with its signs, and writes
what is between them again.
-/

set_option autoImplicit false

namespace Bindery.Textile

/-! ## Escapes -/

section

variable {text : List Char} {length : Nat}

/-- A stretch of the text that ends with the sign that closes a tag. -/
def EndsTag (text : List Char) (length : Nat) : Prop :=
  ∃ inside behind, text = inside ++ '>' :: behind ∧ length = inside.length + 1

theorem EndsTag.behind (start : List Char) (ends : EndsTag text length) :
    EndsTag (start ++ text) (start.length + length) := by
  obtain ⟨inside, behind, rfl, rfl⟩ := ends
  exact ⟨start ++ inside, behind, (List.append_assoc _ _ _).symm, by
    rw [List.length_append, Nat.add_assoc]⟩

theorem endsTag_of_lengthThrough? (read : lengthThrough? "-->".toList text = some length) :
    EndsTag text length := by
  induction text generalizing length with
  | nil => cases read
  | cons c rest ih =>
      rw [lengthThrough?] at read
      split at read
      · next starts =>
          obtain rfl := Option.some.inj read
          obtain ⟨behind, whole⟩ := Text.isSome_dropStart?_iff.mp starts
          exact ⟨['-', '-'], behind, whole.symm, rfl⟩
      · obtain ⟨shorter, later, rfl⟩ := Option.map_eq_some_iff.mp read
        rw [Nat.add_comm]
        exact (ih later).behind [c]

theorem endsTag_of_tagRestLength? (read : tagRestLength? text = some length) :
    EndsTag text length := by
  unfold tagRestLength? at read
  split at read
  · next c rest =>
      split at read
      · dsimp only at read
        split at read
        · next behind found =>
            obtain rfl := Option.some.inj read
            refine ⟨c :: rest.takeWhile fun d => d != '<' && d != '>', behind, ?_, rfl⟩
            rw [List.cons_append, ← found]
            exact congrArg (c :: ·) (List.prefix_append_drop (List.takeWhile_prefix _))
        · cases read
      · cases read
  · cases read

/-- What is kept ends with the sign that closes a tag, and it begins with the one that opens it. -/
theorem endsTag_of_keptLength? (read : keptLength? text = some length) :
    text.head? = some '<' ∧ EndsTag text length := by
  rw [keptLength?, Option.or_eq_some_iff] at read
  rcases read with comment | ⟨-, tag⟩
  · obtain ⟨inside, opened, found⟩ := Option.bind_eq_some_iff.mp comment
    obtain ⟨shorter, closed, same⟩ := Option.bind_eq_some_iff.mp found
    obtain rfl := Option.some.inj same
    rw [Text.dropStart?_eq_some_iff.mp opened]
    exact ⟨rfl, (endsTag_of_lengthThrough? closed).behind "<!--".toList⟩
  · unfold tagLength? at tag
    split at tag
    · obtain ⟨shorter, found, rfl⟩ := Option.map_eq_some_iff.mp tag
      rw [Nat.add_comm]
      exact ⟨rfl, (endsTag_of_tagRestLength? found).behind ['<', '/']⟩
    · obtain ⟨shorter, found, rfl⟩ := Option.map_eq_some_iff.mp tag
      rw [Nat.add_comm]
      exact ⟨rfl, (endsTag_of_tagRestLength? found).behind ['<']⟩
    · cases tag

def Piece.content : Piece → List Char
  | .kept content => content
  | .plain content => content

theorem flatMap_addPlain (c : Char) (pieces : List Piece) :
    (addPlain c pieces).flatMap Piece.content = c :: pieces.flatMap Piece.content := by
  unfold addPlain
  split <;> rfl

/-- The pieces are the text. -/
theorem flatMap_piecesAfter (taken : Nat) (text : List Char) :
    (piecesAfter taken text).flatMap Piece.content = text.drop taken := by
  induction text generalizing taken with
  | nil => cases taken <;> rfl
  | cons c rest ih =>
      cases taken with
      | succ taken => exact ih taken
      | zero =>
          rw [piecesAfter]
          cases kept : keptLength? (c :: rest) with
          | none => exact (flatMap_addPlain c _).trans (congrArg (c :: ·) (ih 0))
          | some length =>
              obtain ⟨inside, behind, -, rfl⟩ := (endsTag_of_keptLength? kept).2
              dsimp only
              rw [List.flatMap_cons, ih]
              exact List.take_append_drop (inside.length + 1) (c :: rest)

end

/-! ## What each rule takes -/

section

variable {text : List Char} {sign mark : Char}

theorem not_mem_takeWhile {holds : Char → Bool} (fails : holds sign = false)
    (text : List Char) : sign ∉ text.take (text.takeWhile holds).length := by
  intro member
  rw [← List.prefix_iff_eq_take.mp (List.takeWhile_prefix holds)] at member
  rw [List.mem_takeWhile_imp member] at fails
  cases fails

theorem angle_not_mem_referenceName (angle : sign = '<' ∨ sign = '>') (text : List Char) :
    sign ∉ text.take (referenceNameLength text) := by
  have decimal : Text.isDecimalDigit sign = false := by
    rcases angle with rfl | rfl <;> decide
  have letter : sign.isAlpha = false ∧ sign.isAlphanum = false := by
    rcases angle with rfl | rfl <;> decide
  have hex : (sign.isDigit || ('a' ≤ sign && sign ≤ 'f') || ('A' ≤ sign && sign ≤ 'F')) =
      false := by
    rcases angle with rfl | rfl <;> decide
  have hash : sign ≠ '#' ∧ sign ≠ 'x' ∧ sign ≠ 'X' := by
    rcases angle with rfl | rfl <;> decide
  unfold referenceNameLength
  split
  · next c rest =>
      split
      · next hexadecimal =>
          have first : sign ≠ c := by
            intro same
            simp [← same, hash] at hexadecimal
          dsimp only
          split
          · exact List.not_mem_nil
          · exact List.not_mem_cons_of_ne_of_not_mem hash.1
              (List.not_mem_cons_of_ne_of_not_mem first (not_mem_takeWhile hex rest))
      · have digits := not_mem_takeWhile decimal (c :: rest)
        dsimp only
        split
        · exact List.not_mem_nil
        · exact List.not_mem_cons_of_ne_of_not_mem hash.1 digits
  · next c rest _ =>
      split
      · next first =>
          have other : sign ≠ c := by
            intro same
            rw [← same, letter.1] at first
            cases first
          exact List.not_mem_cons_of_ne_of_not_mem other (not_mem_takeWhile letter.2 rest)
      · exact List.not_mem_nil
  · exact List.not_mem_nil

/-- A reference at the start of the text is some characters without a sign of a tag. -/
theorem eq_of_referenceLength? {length : Nat} (read : referenceLength? text = some length) :
    ∃ reference rest, text = reference ++ rest ∧ reference ≠ [] ∧ length = reference.length ∧
      ∀ sign, sign = '<' ∨ sign = '>' → sign ∉ reference := by
  unfold referenceLength? at read
  split at read
  · next inside =>
      dsimp only at read
      split at read
      · next rest found =>
          split at read
          · cases read
          · cases read
            refine ⟨'&' :: (inside.take (referenceNameLength inside) ++ [';']), rest, ?_,
              List.cons_ne_nil _ _, ?_, ?_⟩
            · rw [List.cons_append, List.append_assoc, List.singleton_append, ← found,
                List.take_append_drop]
            · have long : referenceNameLength inside ≤ inside.length := by
                by_contra short
                rw [List.drop_of_length_le (not_le.mp short).le] at found
                cases found
              simp [List.length_take, Nat.min_eq_left long]
            · intro sign angle
              have name := angle_not_mem_referenceName angle inside
              have ends : sign ≠ '&' ∧ sign ∉ [';'] := by
                rcases angle with rfl | rfl <;> decide
              exact List.not_mem_cons_of_ne_of_not_mem ends.1 (List.not_mem_append name ends.2)
      · cases read
  · cases read

theorem usedAs_escapeSign : Text.UsedAs escapeSign fun taken written _ =>
    (written = taken ∨ (taken, written) ∈ [(['&'], "&amp;".toList), (['<'], "&lt;".toList),
      (['>'], "&gt;".toList)]) ∧ ∀ sign, sign = '<' ∨ sign = '>' → sign ∉ written := by
  intro text use used
  have plain : ∀ name ∈ ["&amp;", "&lt;", "&gt;"], ∀ sign, sign = '<' ∨ sign = '>' →
      sign ∉ name.toList := by
    intro name member sign angle
    rcases angle with rfl | rfl
    · exact (by decide : ∀ name ∈ ["&amp;", "&lt;", "&gt;"], '<' ∉ name.toList) name member
    · exact (by decide : ∀ name ∈ ["&amp;", "&lt;", "&gt;"], '>' ∉ name.toList) name member
  unfold escapeSign at used
  split at used
  · split at used
    · next length read =>
        obtain rfl := Option.some.inj used
        obtain ⟨reference, rest, whole, nonempty, rfl, absent⟩ := eq_of_referenceLength? read
        rw [whole, List.take_left]
        exact ⟨reference, rest, rfl, nonempty, rfl, .inl rfl, absent⟩
    · obtain rfl := Option.some.inj used
      exact ⟨['&'], _, rfl, List.cons_ne_nil _ _, rfl, .inr (by simp), plain _ (by simp)⟩
  · obtain rfl := Option.some.inj used
    exact ⟨['<'], _, rfl, List.cons_ne_nil _ _, rfl, .inr (by simp), plain _ (by simp)⟩
  · obtain rfl := Option.some.inj used
    exact ⟨['>'], _, rfl, List.cons_ne_nil _ _, rfl, .inr (by simp), plain _ (by simp)⟩
  · cases used

theorem eq_of_bracketed? {digits : List Char} (read : bracketed? text = some digits) :
    (∀ digit ∈ digits, Text.isDecimalDigit digit = true) ∧
      ∃ rest, text = '[' :: (digits ++ ']' :: rest) := by
  unfold bracketed? at read
  split at read
  · next inside =>
      dsimp only at read
      split at read
      · next rest found =>
          split at read
          · cases read
          · cases read
            refine ⟨List.all_eq_true.mp List.all_takeWhile, rest, ?_⟩
            rw [← found, List.prefix_append_drop (List.takeWhile_prefix _) |>.symm]
      · cases read
  · cases read

theorem usedAs_footnoteRule : Text.UsedAs footnoteRule fun taken written _ =>
    ∃ c digits, (∀ digit ∈ digits, Text.isDecimalDigit digit = true) ∧
      taken = c :: ('[' :: (digits ++ [']'])) ∧ written = c :: footnoteReference digits := by
  intro text use used
  unfold footnoteRule at used
  split at used
  · next c rest =>
      split at used
      · cases used
      · obtain ⟨digits, read, rfl⟩ := Option.map_eq_some_iff.mp used
        obtain ⟨decimal, behind, rfl⟩ := eq_of_bracketed? read
        refine ⟨c :: ('[' :: (digits ++ [']'])), behind, ?_, List.cons_ne_nil _ _, ?_, c, digits,
          decimal, rfl, rfl⟩
        · simp only [List.cons_append, List.append_assoc, List.nil_append]
        · simp only [List.length_cons, List.length_append, List.length_nil]
  · cases used

theorem address_isPrefix (text : List Char) : address text <+: text :=
  (Text.dropEndWhile_isPrefix _ _).trans (List.takeWhile_prefix _)

theorem mem_address {c : Char} (member : c ∈ address text) : Text.isBlank c = false ∧ c ≠ '<' := by
  have holds := List.mem_takeWhile_imp ((Text.dropEndWhile_isPrefix _ _).subset member)
  simpa using holds

theorem usedAs_linkRule : Text.UsedAs linkRule fun taken written rest =>
    ∃ label target, label ≠ [] ∧ '"' ∉ label ∧ target ≠ [] ∧ address (target ++ rest) = target ∧
      taken = '"' :: (label ++ '"' :: ':' :: target) ∧
      written = "<a href=\"".toList ++ target ++ "\">".toList ++ label ++ "</a>".toList := by
  intro text use used
  unfold linkRule at used
  split at used
  · next rest =>
      dsimp only at used
      split at used
      · next after found =>
          split at used
          · cases used
          · next nonempty =>
              obtain rfl := Option.some.inj used
              obtain ⟨behind, follows⟩ := address_isPrefix after
              have unquoted : '"' ∉ rest.takeWhile (· != '"') := by
                intro member
                exact absurd (List.mem_takeWhile_imp member) (by simp)
              simp only [Bool.or_eq_true, List.isEmpty_iff, not_or] at nonempty
              refine ⟨'"' :: (rest.takeWhile (· != '"') ++ '"' :: ':' :: address after), behind, ?_,
                List.cons_ne_nil _ _, ?_, _, _, nonempty.1, unquoted, nonempty.2,
                by rw [follows], rfl, rfl⟩
              · rw [List.cons_append, List.append_assoc, List.cons_append, List.cons_append, follows,
                  ← found, List.prefix_append_drop (List.takeWhile_prefix _) |>.symm]
              · simp only [List.length_cons, List.length_append]
                omega
      · cases used
  · cases used

theorem eq_of_phrase? {content : List Char} (found : phrase? mark text = some content) :
    content ≠ [] ∧ mark ∉ content ∧ ∃ rest, text = mark :: (content ++ mark :: rest) := by
  unfold phrase? at found
  split at found
  · next c rest =>
      split at found
      · next same =>
          subst same
          dsimp only at found
          split at found
          · cases found
          · next closed =>
              split at found
              · next first last head =>
                  split at found
                  · cases found
                  · obtain rfl := Option.some.inj found
                    refine ⟨?_, ?_, ?_⟩
                    · intro empty
                      rw [empty] at head
                      cases head
                    · intro member
                      exact absurd (List.mem_takeWhile_imp member) (by simp)
                    · have whole := List.takeWhile_append_dropWhile (p := (· != c)) (l := rest)
                      have stops := List.head?_dropWhile_not (· != c) rest
                      cases behind : rest.dropWhile (· != c) with
                      | nil =>
                          rw [behind, List.append_nil] at whole
                          exact absurd (congrArg List.length whole) closed
                      | cons d more =>
                          rw [behind] at stops whole
                          obtain rfl : d = c := by simpa using stops
                          exact ⟨more, congrArg (d :: ·) whole.symm⟩
              · cases found
      · cases found
  · cases found

theorem usedAs_phraseRule (name : String) : Text.UsedAs (phraseRule mark name)
    fun taken written _ => ∃ content, content ≠ [] ∧ mark ∉ content ∧
      taken = mark :: (content ++ [mark]) ∧ written = element name content := by
  intro text use used
  obtain ⟨content, found, rfl⟩ := Option.map_eq_some_iff.mp used
  obtain ⟨nonempty, once, rest, rfl⟩ := eq_of_phrase? found
  refine ⟨mark :: (content ++ [mark]), rest, ?_, List.cons_ne_nil _ _, ?_, content, nonempty, once,
    rfl, rfl⟩
  · rw [List.cons_append, List.append_assoc, List.singleton_append]
  · simp only [List.length_cons, List.length_append, List.length_nil]

theorem usedAs_emphasisRule : Text.UsedAs emphasisRule fun taken written _ =>
    ∃ c content, leadsEmphasis c = true ∧ content ≠ [] ∧ '_' ∉ content ∧
      taken = c :: '_' :: (content ++ ['_']) ∧ written = c :: element "em" content := by
  intro text use used
  unfold emphasisRule at used
  split at used
  · next c rest =>
      split at used
      · next leads =>
          obtain ⟨content, found, rfl⟩ := Option.map_eq_some_iff.mp used
          obtain ⟨nonempty, once, behind, rfl⟩ := eq_of_phrase? found
          refine ⟨c :: '_' :: (content ++ ['_']), behind, ?_, List.cons_ne_nil _ _, ?_, c, content,
            leads, nonempty, once, rfl, rfl⟩
          · simp only [List.cons_append, List.append_assoc, List.nil_append]
          · simp only [List.length_cons, List.length_append, List.length_nil]
      · cases used
  · cases used

end

end Bindery.Textile
