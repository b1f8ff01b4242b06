import Bindery.Text.CaseFold
import Bindery.Text.WordChar

/-!
# Patterns

A pattern is tried at a place in a text together with what has to follow it. Where it
can go on in several ways they are tried in its own order, and the first one with which
all that follows fits is taken. Patterns may be of any size.
-/

set_option autoImplicit false

namespace Bindery.Text

/-- What comes of a place in a text, given the character before it and the text behind it. There is
nothing if what is tried there does not fit. -/
abbrev Matcher (α : Type) := Option Char → List Char → Option α

section

variable {α : Type}

/-- A character that satisfies the test. -/
def one (accepts : Char → Bool) (next : Matcher α) : Matcher α
  | _, c :: rest => if accepts c then next (some c) rest else none
  | _, [] => none

/-- The characters of the word, each in any case. -/
def inAnyCase : List Char → Matcher α → Matcher α
  | [], next => next
  | c :: word, next => one (sameFold c) (inAnyCase word next)

/-- The border of a word: a word character on one side and none on the other. -/
def wordBorder (next : Matcher α) : Matcher α := fun before text =>
  if before.any isWordChar != text.head?.any isWordChar then next before text else none

/-- As many characters that satisfy the test as there are, then fewer. -/
def manyOf (accepts : Char → Bool) (next : Matcher α) : Matcher α
  | before, [] => next before []
  | before, c :: rest =>
      if accepts c then
        match manyOf accepts next (some c) rest with
        | some found => some found
        | none => next before (c :: rest)
      else next before (c :: rest)

/-- As few characters as possible, then more. What follows is given the characters taken, the last
one first. -/
def fewOf (next : List Char → Matcher α) (taken : List Char) : Matcher α
  | before, [] => next taken before []
  | before, c :: rest =>
      match next taken before (c :: rest) with
      | some found => some found
      | none => fewOf next (c :: taken) (some c) rest

/-- One character that satisfies the test, and as many more as there are, then fewer. -/
def someOf (accepts : Char → Bool) (next : Matcher α) : Matcher α := one accepts (manyOf accepts next)

/-- As few characters that satisfy the test as possible, then more. -/
def leastOf (accepts : Char → Bool) (next : Matcher α) : Matcher α
  | before, [] => next before []
  | before, c :: rest =>
      match next before (c :: rest) with
      | some found => some found
      | none => if accepts c then leastOf accepts next (some c) rest else none

/-- The first pattern, and where it does not fit the second one. -/
def either (first second : Matcher α) : Matcher α := fun before text =>
  match first before text with
  | some found => some found
  | none => second before text

/-- A part that may be left out. What follows is given what the part gives, if it is there. -/
def optional {β : Type} (part : (β → Matcher α) → Matcher α) (next : Option β → Matcher α) :
    Matcher α :=
  either (part fun given => next (some given)) (next none)

/-- A part whose text is given to what follows. -/
def group (part : Matcher α → Matcher α) (next : List Char → Matcher α) : Matcher α :=
  fun before text =>
    part (fun last rest => next (text.take (text.length - rest.length)) last rest) before text

/-- The end of the text. -/
def textEnd (next : Matcher α) : Matcher α
  | before, [] => next before []
  | _, _ :: _ => none

/-- The beginning of a line. -/
def lineStart (next : Matcher α) : Matcher α := fun before text =>
  if before.all (· == '\n') then next before text else none

/-- The end of a line, before its line feed. -/
def lineEnd (next : Matcher α) : Matcher α := fun before text =>
  if text.head?.all (· == '\n') then next before text else none

/-- The pattern at the first place where it fits. -/
def firstMatch (pattern : Matcher α) : Matcher α
  | before, [] => pattern before []
  | before, c :: rest =>
      match pattern before (c :: rest) with
      | some found => some found
      | none => firstMatch pattern (some c) rest

/-- Removes what the pattern takes at every place where it fits, leftmost first. The pattern takes
some characters and gives the text behind them. The number counts the characters that the last one
removed still takes. -/
def removeAfter (pattern : Matcher (List Char)) : Nat → Option Char → List Char → List Char
  | _, _, [] => []
  | taken + 1, _, c :: rest => removeAfter pattern taken (some c) rest
  | 0, before, c :: rest =>
      match pattern before (c :: rest) with
      | some behind => removeAfter pattern (rest.length - behind.length) (some c) rest
      | none => c :: removeAfter pattern 0 (some c) rest

def removeAll (pattern : Matcher (List Char)) (text : List Char) : List Char :=
  removeAfter pattern 0 none text

end

end Bindery.Text
