import Bindery.Html.Entity
import Bindery.Text.Lines

/-!
# Character references

`&name;`, `&#10;` and `&#xA;` in the text and in the attribute values of a
document. Some names also count without the semicolon; of all names that fit,
the longest is taken.
-/

set_option autoImplicit false

namespace Bindery.Html

/-- The longest name at the start of the text: its length is first, then what it
stands for, its last character and what follows. -/
def longestName (text : List Char) : Option (Nat × List Char × Char × List Char) :=
  (entitiesAt text).foldl
    (fun best (name, value) =>
      match Text.dropStart? name text with
      | none => best
      | some rest =>
          let found := (name.length, value, name.getLastD ' ', rest)
          match best with
          | none => some found
          | some (length, _) => if length < name.length then some found else best)
    none

/-- What follows a semicolon, if one comes first. -/
def skipSemicolon : List Char → List Char
  | ';' :: rest => rest
  | text => text

/-- The digits of a numeric reference in the base, as the character they stand for. -/
def readNumeral (base : Nat) (digitOf : Char → Option Nat) (text : List Char) :
    Option (List Char × List Char) :=
  let digits := text.takeWhile fun c => (digitOf c).isSome
  if digits.isEmpty then none
  else
    some ([numericReference (numeral base digitOf digits)],
      skipSemicolon (text.drop digits.length))

/-- Whether a name without a semicolon is left alone in an attribute value because of
the character behind it. -/
def keepsAmpersand : List Char → Bool
  | [] => false
  | c :: _ => c == '=' || c.isAlphanum

/-- Reads a reference behind its ampersand: the characters it stands for and the rest. -/
def readReference (inValue : Bool) : List Char → Option (List Char × List Char)
  | '#' :: 'x' :: rest => readNumeral 16 hexDigit? rest
  | '#' :: 'X' :: rest => readNumeral 16 hexDigit? rest
  | '#' :: rest => readNumeral 10 digit? rest
  | [] => none
  | c :: rest =>
      if c.isAlpha then
        match longestName (c :: rest) with
        | none => none
        | some (_, value, last, after) =>
            if inValue && last != ';' && keepsAmpersand after then none
            else some (value, after)
      else none

/-- Replaces the references of an attribute value; the number bounds the characters read. -/
def decodeWithin : Nat → List Char → List Char
  | 0, _ => []
  | _ + 1, [] => []
  | n + 1, '&' :: rest =>
      match readReference true rest with
      | some (value, after) => value ++ decodeWithin n after
      | none => '&' :: decodeWithin n rest
  | n + 1, c :: rest => c :: decodeWithin n rest

/-- The attribute value that a written value stands for. -/
def decodeValue (written : List Char) : List Char := decodeWithin written.length written

end Bindery.Html
