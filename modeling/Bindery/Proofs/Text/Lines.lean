import Bindery.Text.Blank
import Bindery.Text.Lines
import Mathlib.Data.List.TakeWhile
import Mathlib.Data.Nat.Init

/-!
# Lines of a text in parts

A text can be cut behind a line feed, and its lines are those of the parts. What
stands on one line stays on one line, whatever follows.
-/

set_option autoImplicit false

namespace Bindery.Text

/-- A statement about the characters of a text is decided on the text. Without this, all characters
there are would be tried. -/
instance decidableForallMem {p : Char → Prop} [DecidablePred p] (text : List Char) :
    Decidable (∀ c ∈ text, p c) :=
  List.decidableBAll p text

instance decidableForallMemOption {p : Char → Prop} [DecidablePred p] (place : Option Char) :
    Decidable (∀ c ∈ place, p c) :=
  place.decidableForallMem

theorem dropStart?_eq_some_iff {start text rest : List Char} :
    dropStart? start text = some rest ↔ text = start ++ rest := by
  induction start generalizing text with
  | nil => exact Option.some_inj
  | cons first start ih =>
      cases text with
      | nil => simp [dropStart?]
      | cons c text =>
          rw [dropStart?]
          split
          · next same => simp [ih, same]
          · next other => simp [Ne.symm other]

theorem isSome_dropStart?_iff {start text : List Char} :
    (dropStart? start text).isSome = true ↔ start <+: text := by
  simp only [Option.isSome_iff_exists, dropStart?_eq_some_iff]
  exact ⟨fun ⟨rest, same⟩ => ⟨rest, same.symm⟩, fun ⟨rest, same⟩ => ⟨rest, same.symm⟩⟩

theorem dropStart?_eq_none_iff {start text : List Char} :
    dropStart? start text = none ↔ ¬ start <+: text := by
  rw [← Option.not_isSome_iff_eq_none, isSome_dropStart?_iff]

/-- Writes a text before the first of some lines. -/
def beforeFirst (text : List Char) : List (List Char) → List (List Char)
  | [] => [text]
  | line :: others => (text ++ line) :: others

theorem beforeFirst_append {text : List Char} {lines more : List (List Char)}
    (nonempty : lines ≠ []) :
    beforeFirst text (lines ++ more) = beforeFirst text lines ++ more := by
  obtain ⟨line, others, rfl⟩ := List.exists_cons_of_ne_nil nonempty
  rfl

theorem lines_cons {c : Char} {rest : List Char} (inside : c ≠ '\n')
    (alone : ¬ (c = '\r' ∧ rest.head? = some '\n')) :
    lines (c :: rest) = beforeFirst [c] (lines rest) := by
  rw [lines]
  · cases lines rest <;> rfl
  · exact inside
  · rintro after rfl rfl
    exact alone ⟨rfl, rfl⟩

theorem lines_ne_nil {text : List Char} (nonempty : text ≠ []) : lines text ≠ [] := by
  fun_cases lines text with
  | case1 => exact absurd rfl nonempty
  | case2 rest => exact List.cons_ne_nil _ _
  | case3 rest => exact List.cons_ne_nil _ _
  | case4 c rest => exact List.cons_ne_nil _ _
  | case5 c rest => exact List.cons_ne_nil _ _

theorem lines_append_lineFeed (before after : List Char) :
    lines (before ++ '\n' :: after) = lines (before ++ ['\n']) ++ lines after := by
  have step : ∀ c rest, c ≠ '\n' → ¬ (c = '\r' ∧ (rest ++ ['\n']).head? = some '\n') →
      lines (rest ++ '\n' :: after) = lines (rest ++ ['\n']) ++ lines after →
      lines (c :: rest ++ '\n' :: after) = lines (c :: rest ++ ['\n']) ++ lines after := by
    intro c rest inside alone ih
    have same : (rest ++ '\n' :: after).head? = (rest ++ ['\n']).head? := by cases rest <;> rfl
    rw [List.cons_append, List.cons_append, lines_cons inside (same ▸ alone), ih,
      lines_cons inside alone, beforeFirst_append (lines_ne_nil (by simp))]
  -- A carriage return ends a line together with the line feed behind it, so a step may take two
  -- characters.
  induction h : before.length using Nat.strong_induction_on generalizing before with
  | _ length ih =>
      subst h
      cases before with
      | nil => rfl
      | cons c rest =>
          have next := ih rest.length (Nat.lt_succ_self _) rest rfl
          by_cases feed : c = '\n'
          · subst feed
            exact congrArg ([] :: ·) next
          · by_cases ending : c = '\r' ∧ (rest ++ ['\n']).head? = some '\n'
            · obtain ⟨rfl, follows⟩ := ending
              cases rest with
              | nil => rfl
              | cons d rest =>
                  obtain rfl : d = '\n' := Option.some.inj follows
                  have shorter : rest.length < ('\r' :: '\n' :: rest).length := by
                    rw [List.length_cons, List.length_cons]
                    omega
                  exact congrArg ([] :: ·) (ih rest.length shorter rest rfl)
            · exact step c rest feed ending next

/-- A text on one line, which may go on. -/
theorem lines_append {line : List Char} (after : List Char) (nonempty : line ≠ [])
    (plain : '\n' ∉ line) (closed : line.getLast? ≠ some '\r') :
    lines (line ++ after) = beforeFirst line (lines after) := by
  induction line with
  | nil => exact absurd rfl nonempty
  | cons c rest ih =>
      rw [List.mem_cons, not_or] at plain
      cases rest with
      | nil =>
          refine lines_cons (Ne.symm plain.1) fun ending => closed ?_
          rw [ending.1]
          rfl
      | cons d rest =>
          have alone : ¬ (c = '\r' ∧ (d :: rest ++ after).head? = some '\n') := by
            rintro ⟨-, follows⟩
            exact plain.2 (Option.some.inj follows ▸ List.mem_cons_self)
          rw [List.getLast?_cons_cons] at closed
          rw [List.cons_append, lines_cons (Ne.symm plain.1) alone,
            ih (List.cons_ne_nil _ _) plain.2 closed]
          cases lines after <;> rfl

theorem mem_of_mem_lines {c : Char} {text line : List Char} (among : line ∈ lines text)
    (member : c ∈ line) : c ∈ text := by
  fun_induction lines text generalizing line with
  | case1 => cases among
  | case2 rest ih =>
      rcases List.mem_cons.mp among with rfl | later
      · cases member
      · exact List.mem_cons_of_mem _ (ih later member)
  | case3 rest ih =>
      rcases List.mem_cons.mp among with rfl | later
      · cases member
      · exact List.mem_cons_of_mem _ (List.mem_cons_of_mem _ (ih later member))
  | case4 d rest _ _ none ih =>
      obtain rfl := List.mem_singleton.mp among
      obtain rfl := List.mem_singleton.mp member
      exact List.mem_cons_self
  | case5 d rest _ _ next more found ih =>
      rw [found] at ih
      rcases List.mem_cons.mp among with rfl | later
      · rcases List.mem_cons.mp member with rfl | inside
        · exact List.mem_cons_self
        · exact List.mem_cons_of_mem _ (ih List.mem_cons_self inside)
      · exact List.mem_cons_of_mem _ (ih (List.mem_cons_of_mem _ later) member)

/-- The first line, which may lose the carriage return at its end. -/
theorem exists_firstLine {line below : List Char} (nonempty : line ++ below ≠ [])
    (plain : '\n' ∉ line) (feed : below = [] ∨ ['\n'] <+: below) :
    ∃ shown, (line = shown ∨ line = shown ++ ['\r']) ∧
      lines (line ++ below) = shown :: lines below.tail := by
  induction line with
  | nil =>
      obtain rfl | ⟨rest, rfl⟩ := feed
      · exact absurd rfl nonempty
      · exact ⟨[], .inl rfl, rfl⟩
  | cons c line ih =>
      rw [List.mem_cons, not_or] at plain
      by_cases last : line ++ below = []
      · obtain ⟨rfl, rfl⟩ := List.append_eq_nil_iff.mp last
        refine ⟨[c], .inl rfl, ?_⟩
        rw [List.append_nil, lines_cons (Ne.symm plain.1) fun ending => by cases ending.2]
        rfl
      · by_cases ending : c = '\r' ∧ (line ++ below).head? = some '\n'
        · obtain ⟨rfl, first⟩ := ending
          cases line with
          | cons d line =>
              obtain rfl : d = '\n' := Option.some.inj first
              exact absurd List.mem_cons_self plain.2
          | nil =>
              obtain rfl | ⟨rest, rfl⟩ := feed
              · exact absurd rfl last
              · exact ⟨[], .inr rfl, rfl⟩
        · obtain ⟨shown, same, found⟩ := ih last plain.2
          refine ⟨c :: shown, same.imp (congrArg (c :: ·)) (congrArg (c :: ·)), ?_⟩
          rw [List.cons_append, lines_cons (Ne.symm plain.1) ending, found]
          rfl

theorem lineFeed_not_mem_of_mem_lines {text line : List Char} (among : line ∈ lines text) :
    '\n' ∉ line := by
  fun_induction lines text generalizing line with
  | case1 => cases among
  | case2 rest ih =>
      rcases List.mem_cons.mp among with rfl | later
      · exact List.not_mem_nil
      · exact ih later
  | case3 rest ih =>
      rcases List.mem_cons.mp among with rfl | later
      · exact List.not_mem_nil
      · exact ih later
  | case4 c rest inside _ none ih =>
      obtain rfl := List.mem_singleton.mp among
      exact fun member => inside (List.mem_singleton.mp member).symm
  | case5 c rest inside _ next more found ih =>
      rw [found] at ih
      rcases List.mem_cons.mp among with rfl | later
      · rw [List.mem_cons, not_or]
        exact ⟨Ne.symm inside, ih List.mem_cons_self⟩
      · exact ih (List.mem_cons_of_mem _ later)

theorem unixEndings_cons {c : Char} {rest : List Char}
    (alone : ¬ (c = '\r' ∧ rest.head? = some '\n')) :
    unixEndings (c :: rest) = c :: unixEndings rest := by
  rw [unixEndings]
  rintro after rfl rfl
  exact alone ⟨rfl, rfl⟩

/-- A text can be cut where no line ending is. -/
theorem unixEndings_append {before after : List Char}
    (whole : before.getLast? ≠ some '\r' ∨ after.head? ≠ some '\n') :
    unixEndings (before ++ after) = unixEndings before ++ unixEndings after := by
  fun_induction unixEndings before with
  | case1 => rfl
  | case2 rest ih =>
      refine congrArg ('\n' :: ·) (ih ?_)
      cases rest with
      | nil => exact .inl nofun
      | cons d rest => simpa using whole
  | case3 c rest inner ih =>
      have alone : ¬ (c = '\r' ∧ (rest ++ after).head? = some '\n') := by
        rintro ⟨rfl, follows⟩
        cases rest with
        | nil =>
            rcases whole with closed | other
            · exact closed rfl
            · exact other follows
        | cons d rest => exact inner rest rfl (by rw [Option.some.inj follows])
      rw [List.cons_append, unixEndings_cons alone]
      refine congrArg (c :: ·) (ih ?_)
      cases rest with
      | nil => exact .inl nofun
      | cons d rest => simpa using whole

theorem unixEndings_eq_self {text : List Char} (plain : '\n' ∉ text) : unixEndings text = text := by
  induction text with
  | nil => rfl
  | cons c rest ih =>
      rw [List.mem_cons, not_or] at plain
      have alone : ¬ (c = '\r' ∧ rest.head? = some '\n') :=
        fun ending => plain.2 (List.mem_of_mem_head? ending.2)
      rw [unixEndings_cons alone, ih plain.2]

theorem unixEndings_eq_self_of_no_return {text : List Char} (plain : '\r' ∉ text) :
    unixEndings text = text := by
  induction text with
  | nil => rfl
  | cons c rest ih =>
      rw [List.mem_cons, not_or] at plain
      rw [unixEndings_cons fun ending => plain.1 ending.1.symm, ih plain.2]

end Bindery.Text
