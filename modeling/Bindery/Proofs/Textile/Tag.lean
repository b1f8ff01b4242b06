import Bindery.Proofs.Textile.Frame
import Bindery.Proofs.Textile.Rules

/-!
# Tags in markup

Markup is read one character after another: texts, start tags with their attributes,
end tags, and breaks. It is well formed if it ends outside tags and each start tag is
closed by the end tag of its element, the last one first.
-/

set_option autoImplicit false

namespace Bindery.Textile

/-- Where in the markup a reader is. -/
inductive Mode where
  | text
  /-- Behind the sign that opens a tag. -/
  | opened
  /-- In the name of an end tag. -/
  | closing (name : List Char)
  /-- In the name of a start tag. -/
  | naming (name : List Char)
  /-- Behind a blank in a start tag. -/
  | gap (name : List Char)
  /-- In the name of an attribute. -/
  | key (name : List Char)
  /-- Behind the name of an attribute and the sign that follows it. -/
  | equals (name : List Char)
  /-- In the value of an attribute. -/
  | value (name : List Char)
  /-- Behind the value of an attribute. -/
  | behind (name : List Char)
  /-- Behind the slash of a break. -/
  | slash
  deriving Repr, DecidableEq

/-- A tag that has been read, with the name of its element. -/
inductive Mark where
  | start (name : List Char)
  | finish (name : List Char)
  deriving Repr, DecidableEq

def Mark.name : Mark → List Char
  | .start name => name
  | .finish name => name

/-- Reads one more character. The signs of tags stand for nothing else, and a value holds neither
of them. The one element without an end tag is the break. -/
def step : Mode → Char → Option (List Mark × Mode)
  | .text, c =>
      if c = '<' then some ([], .opened) else if c = '>' then none else some ([], .text)
  | .opened, c =>
      if c = '/' then some ([], .closing [])
      else if c.isAlpha then some ([], .naming [c])
      else none
  | .closing name, c =>
      if c = '>' then some ([.finish name], .text)
      else if c.isAlphanum then some ([], .closing (name ++ [c]))
      else none
  | .naming name, c =>
      if c = '>' then some ([.start name], .text)
      else if c = ' ' then some ([], .gap name)
      else if c.isAlphanum then some ([], .naming (name ++ [c]))
      else none
  | .gap name, c =>
      if c = '/' ∧ name = "br".toList then some ([], .slash)
      else if c.isAlpha then some ([], .key name)
      else none
  | .key name, c =>
      if c = '=' then some ([], .equals name)
      else if c.isAlpha then some ([], .key name)
      else none
  | .equals name, c => if c = '"' then some ([], .value name) else none
  | .value name, c =>
      if c = '"' then some ([], .behind name)
      else if c = '<' ∨ c = '>' then none
      else some ([], .value name)
  | .behind name, c =>
      if c = '>' then some ([.start name], .text)
      else if c = ' ' then some ([], .gap name)
      else none
  | .slash, c => if c = '>' then some ([], .text) else none

/-- Reads a text character by character and collects the tags in it. -/
def run {σ : Type} (step : σ → Char → Option (List Mark × σ)) :
    σ → List Char → Option (List Mark × σ)
  | state, [] => some ([], state)
  | state, c :: rest => do
      let (marks, next) ← step state c
      let (others, last) ← run step next rest
      return (marks ++ others, last)

/-- The elements that are open behind some tags, the last one first, if each end tag closes the
last element that is open before it. -/
def nest : List (List Char) → List Mark → Option (List (List Char))
  | stack, [] => some stack
  | stack, .start name :: rest => nest (name :: stack) rest
  | name :: stack, .finish other :: rest => if name = other then nest stack rest else none
  | [], .finish _ :: _ => none

/-- The reader is outside tags behind the text. -/
def EndsOutside (text : List Char) : Prop := ∃ marks, run step .text text = some (marks, .text)

/-- All tags in the text are nested and closed. -/
def WellFormed (text : List Char) : Prop :=
  ∃ marks, run step .text text = some (marks, .text) ∧ nest [] marks = some []

instance (text : List Char) : Decidable (EndsOutside text) :=
  decidable_of_iff ((run step .text text).any fun read => read.2 = .text) <| by
    simp [EndsOutside, Option.any_eq_true]

instance (text : List Char) : Decidable (WellFormed text) :=
  decidable_of_iff ((run step .text text).any fun read =>
      nest [] read.1 = some [] ∧ read.2 = .text) <| by
    simp [WellFormed, Option.any_eq_true]

/-! ## Reading on -/

section

variable {σ : Type} {step : σ → Char → Option (List Mark × σ)} {state last : σ}
  {marks : List Mark} {c : Char} {rest first second : List Char}

theorem run_cons_eq_some_iff :
    run step state (c :: rest) = some (marks, last) ↔
      ∃ here next others, step state c = some (here, next) ∧
        run step next rest = some (others, last) ∧ marks = here ++ others := by
  rw [run]
  constructor
  · intro done
    obtain ⟨⟨here, next⟩, stepped, done⟩ := Option.bind_eq_some_iff.mp done
    obtain ⟨⟨others, final⟩, later, same⟩ := Option.bind_eq_some_iff.mp done
    cases same
    exact ⟨here, next, others, stepped, later, rfl⟩
  · intro done
    obtain ⟨here, next, others, stepped, later, rfl⟩ := done
    rw [stepped]
    dsimp only [bind, Option.bind]
    rw [later]
    rfl

theorem run_singleton {next : σ} (stepped : step state c = some (marks, next)) :
    run step state [c] = some (marks, next) :=
  run_cons_eq_some_iff.mpr ⟨marks, next, [], stepped, rfl, (List.append_nil marks).symm⟩

/-- A character that takes the reader nowhere else may be left out. -/
theorem run_stay (stays : step state c = some ([], state)) :
    run step state (c :: rest) = run step state rest := by
  rw [run, stays]
  dsimp only [bind, Option.bind]
  cases run step state rest with
  | none => rfl
  | some read => rfl

theorem run_append_eq_some_iff :
    run step state (first ++ second) = some (marks, last) ↔
      ∃ here next others, run step state first = some (here, next) ∧
        run step next second = some (others, last) ∧ marks = here ++ others := by
  induction first generalizing state marks with
  | nil => simp [run]
  | cons c rest ih =>
      rw [List.cons_append, run_cons_eq_some_iff]
      constructor
      · intro done
        obtain ⟨here, next, others, stepped, later, rfl⟩ := done
        obtain ⟨middle, place, more, front, back, rfl⟩ := ih.mp later
        exact ⟨here ++ middle, place, more,
          run_cons_eq_some_iff.mpr ⟨here, next, middle, stepped, front, rfl⟩, back,
          (List.append_assoc _ _ _).symm⟩
      · intro done
        obtain ⟨front, place, more, read, back, rfl⟩ := done
        obtain ⟨here, next, middle, stepped, later, rfl⟩ := run_cons_eq_some_iff.mp read
        exact ⟨here, next, middle ++ more, stepped, ih.mpr ⟨middle, place, more, later, back, rfl⟩,
          List.append_assoc _ _ _⟩

theorem run_append {middle : σ} {others : List Mark}
    (front : run step state first = some (marks, middle))
    (back : run step middle second = some (others, last)) :
    run step state (first ++ second) = some (marks ++ others, last) :=
  run_append_eq_some_iff.mpr ⟨marks, middle, others, front, back, rfl⟩

theorem run_append_of_none (front : run step state first = some (marks, last))
    (back : run step last second = none) : run step state (first ++ second) = none := by
  cases read : run step state (first ++ second) with
  | none => rfl
  | some whole =>
      obtain ⟨here, next, others, opening, later, -⟩ := run_append_eq_some_iff.mp read
      cases front.symm.trans opening
      rw [back] at later
      cases later

/-- A text in which no character takes the reader elsewhere. -/
theorem run_of_stays (stays : ∀ c ∈ rest, step state c = some ([], state)) :
    run step state rest = some ([], state) := by
  induction rest with
  | nil => rfl
  | cons c rest ih =>
      obtain ⟨here, others⟩ := List.forall_mem_cons.mp stays
      exact run_cons_eq_some_iff.mpr ⟨[], state, [], here, ih others, rfl⟩

end

section

variable {marks others : List Mark} {stack last : List (List Char)} {name : List Char}

theorem nest_append_eq_some_iff :
    nest stack (marks ++ others) = some last ↔
      ∃ middle, nest stack marks = some middle ∧ nest middle others = some last := by
  induction marks generalizing stack with
  | nil => simp [nest]
  | cons mark marks ih =>
      cases mark with
      | start name => exact ih
      | finish name =>
          cases stack with
          | nil => simp [nest]
          | cons top stack =>
              rw [List.cons_append, nest, nest]
              split
              · exact ih
              · simp

/-- What is open below stays open. -/
theorem nest_above (nested : nest stack marks = some last) (below : List (List Char)) :
    nest (stack ++ below) marks = some (last ++ below) := by
  induction marks generalizing stack with
  | nil => rw [nest, Option.some.inj nested]
  | cons mark marks ih =>
      cases mark with
      | start name => exact ih nested
      | finish name =>
          cases stack with
          | nil => cases nested
          | cons top stack =>
              rw [List.cons_append]
              rw [nest] at nested ⊢
              split at nested
              · next same =>
                  rw [if_pos same]
                  exact ih nested
              · cases nested

/-- Tags of other elements do not close an element that is open before them. -/
theorem nest_of_other {below : List (List Char)} (other : ∀ mark ∈ marks, mark.name ≠ name)
    (absent : name ∉ stack) (nested : nest (stack ++ name :: below) marks = some last) :
    ∃ above, last = above ++ name :: below ∧ nest stack marks = some above ∧ name ∉ above := by
  induction marks generalizing stack with
  | nil => exact ⟨stack, (Option.some.inj nested).symm, rfl, absent⟩
  | cons mark marks ih =>
      obtain ⟨here, others⟩ := List.forall_mem_cons.mp other
      cases mark with
      | start own => exact ih others (List.not_mem_cons_of_ne_of_not_mem here.symm absent) nested
      | finish own =>
          cases stack with
          | nil =>
              rw [List.nil_append, nest] at nested
              split at nested
              · next same => exact absurd same.symm here
              · cases nested
          | cons top stack =>
              rw [List.cons_append] at nested
              rw [nest] at nested ⊢
              split at nested
              · next same =>
                  rw [if_pos same]
                  exact ih others (fun member => absent (List.mem_cons_of_mem top member)) nested
              · cases nested

end

/-! ## Stand-ins in what is read -/

/-- Where a reader is who leaves stand-ins in tags out. -/
inductive Place where
  | plain (mode : Mode)
  /-- In a stand-in, behind some digits of it or not. -/
  | standing (mode : Mode) (begun : Bool)
  deriving Repr, DecidableEq

/-- Reads one more character or leaves it out. -/
def pass : Place → Char → Option (List Mark × Place)
  | .plain mode, c =>
      match step mode c with
      | some (marks, next) => some (marks, .plain next)
      | none => if c = opener then some ([], .standing mode false) else none
  | .standing mode begun, c =>
      if Text.isDecimalDigit c then some ([], .standing mode true)
      else if begun ∧ c = closer then some ([], .plain mode)
      else none

section

variable {mode next : Mode} {c : Char} {text rest : List Char} {marks : List Mark} {place : Place}

theorem pass_of_step (stepped : step mode c = some (marks, next)) :
    pass (.plain mode) c = some (marks, .plain next) := by
  rw [pass, stepped]

/-- In a text and in a value, characters that are no signs of tags or values stand for themselves.
Elsewhere no character beyond ASCII does. -/
theorem step_opener (mode : Mode) : step mode opener = none ∨
    ∀ c, c ≠ '<' → c ≠ '>' → c ≠ '"' → step mode c = some ([], mode) := by
  have other : opener ≠ '/' ∧ opener ≠ '>' ∧ opener ≠ ' ' ∧ opener ≠ '=' ∧ opener ≠ '"' ∧
      opener.isAlpha = false ∧ opener.isAlphanum = false := by
    decide
  cases mode with
  | text =>
      right
      intro c left right quote
      simp [step, left, right]
  | value name =>
      right
      intro c left right quote
      simp [step, left, right, quote]
  | _ => simp [step, other]

/-- No tag is opened within a tag. -/
theorem step_angle (other : mode ≠ .text) : step mode '<' = none := by
  have letter : '<'.isAlpha = false ∧ '<'.isAlphanum = false := by decide
  cases mode with
  | text => exact absurd rfl other
  | _ => simp [step, letter]

/-- What ends outside stand-ins has the end of the stand-in that it begins in. -/
theorem exists_closer {begun : Bool} (read : run pass (.standing mode begun) text =
    some (marks, .plain next)) :
    ∃ digits rest, text = digits ++ closer :: rest ∧
      (∀ digit ∈ digits, Text.isDecimalDigit digit = true) ∧ (begun = true ∨ digits ≠ []) := by
  induction text generalizing begun marks with
  | nil => cases read
  | cons c rest ih =>
      obtain ⟨here, place, others, stepped, later, rfl⟩ := run_cons_eq_some_iff.mp read
      rw [pass] at stepped
      split at stepped
      · next digit =>
          cases stepped
          obtain ⟨digits, behind, rfl, decimal, -⟩ := ih later
          exact ⟨c :: digits, behind, rfl, List.forall_mem_cons.mpr ⟨digit, decimal⟩,
            .inr (List.cons_ne_nil _ _)⟩
      · split at stepped
        · next ends =>
            obtain ⟨some, rfl⟩ := ends
            exact ⟨[], rest, rfl, nofun, .inl some⟩
        · cases stepped

/-- A stand-in takes the reader nowhere else. -/
theorem run_standing {digits : List Char}
    (read : standInDigits? (opener :: (digits ++ closer :: rest)) = some digits) (mode : Mode) :
    run pass (.plain mode) (opener :: (digits ++ [closer])) = some ([], .plain mode) := by
  obtain ⟨decimal, -⟩ := eq_append_of_standInDigits? read
  rcases step_opener mode with strange | stays
  · have opens : pass (.plain mode) opener = some ([], .standing mode false) := by
      rw [pass, strange, if_pos rfl]
    have counts : run pass (.standing mode false) digits = some ([], .standing mode true) := by
      cases digits with
      | nil => exact absurd read (by simp [standInDigits?, isDecimalDigit_closer])
      | cons digit digits =>
          obtain ⟨here, others⟩ := List.forall_mem_cons.mp decimal
          refine run_cons_eq_some_iff.mpr ⟨[], .standing mode true, [], if_pos here, ?_, rfl⟩
          exact run_of_stays fun c member => if_pos (others c member)
    have closes : run pass (.standing mode true) [closer] = some ([], .plain mode) := rfl
    refine run_cons_eq_some_iff.mpr ⟨[], _, [], opens, ?_, rfl⟩
    exact run_append counts closes
  · have apart : ∀ sign ∈ ['<', '>', '"'], sign ∉ opener :: (digits ++ [closer]) := by
      intro sign among
      have others : ∀ sign ∈ ['<', '>', '"'], Text.isDecimalDigit sign = false ∧
          sign ≠ opener ∧ sign ∉ [closer] := by
        decide
      obtain ⟨other, first, last⟩ := others sign among
      exact List.not_mem_cons_of_ne_of_not_mem first
        (List.not_mem_append (Footnote.not_mem_of_decimal other decimal) last)
    apply run_of_stays
    intro c member
    apply pass_of_step
    apply stays
    · exact fun same => apart '<' (by simp) (same ▸ member)
    · exact fun same => apart '>' (by simp) (same ▸ member)
    · exact fun same => apart '"' (by simp) (same ▸ member)

/-- A reader who leaves stand-ins out reads a text as it is shown. -/
theorem run_restore_eq_some_iff :
    run step mode (restore [] text) = some (marks, next) ↔
      run pass (.plain mode) text = some (marks, .plain next) := by
  induction text using standIns_induction generalizing mode marks with
  | nil =>
      have empty : restore [] [] = [] := rfl
      rw [empty]
      simp [run]
  | plain c rest plain ih =>
      rw [restore_plain plain, run_cons_eq_some_iff, run_cons_eq_some_iff]
      constructor
      · intro read
        obtain ⟨here, later, others, stepped, read, rfl⟩ := read
        exact ⟨here, .plain later, others, pass_of_step stepped, ih.mp read, rfl⟩
      · intro read
        obtain ⟨here, later, others, stepped, read, rfl⟩ := read
        rw [pass] at stepped
        split at stepped
        · next marks mode same =>
            cases stepped
            exact ⟨here, mode, others, same, ih.mpr read, rfl⟩
        · split at stepped
          · next opens =>
              cases stepped
              obtain ⟨digits, behind, rfl, decimal, some⟩ := exists_closer read
              rw [opens, standInDigits?_standing decimal (some.resolve_left nofun)] at plain
              cases plain
          · cases stepped
  | standing digits rest read absent ih =>
      have nothing : filled [] digits = [] := by
        unfold filled
        cases index? digits <;> rfl
      have whole : opener :: (digits ++ closer :: rest) =
          opener :: (digits ++ [closer]) ++ rest := by
        rw [List.cons_append, List.append_assoc, List.singleton_append]
      rw [restore_standing read, nothing, List.nil_append, ih, whole, run_append_eq_some_iff]
      constructor
      · intro later
        exact ⟨[], _, marks, run_standing read mode, later, rfl⟩
      · intro later
        obtain ⟨here, place, others, first, later, rfl⟩ := later
        cases (run_standing read mode).symm.trans first
        exact later

end

end Bindery.Textile
