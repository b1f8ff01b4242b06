import Bindery.Text.CharRange

/-!
# White space

The white space of Unicode, trimming, and the words between blanks.
-/

set_option autoImplicit false

namespace Bindery.Text

def blankRanges : List (Nat × Nat) := [
    (0x9, 0xD), (0x20, 0x20), (0x85, 0x85), (0xA0, 0xA0), (0x1680, 0x1680), (0x2000, 0x200A),
    (0x2028, 0x2029), (0x202F, 0x202F), (0x205F, 0x205F), (0x3000, 0x3000)]

def isBlank (c : Char) : Bool := inRanges blankRanges c

def allBlank (text : List Char) : Bool := text.all isBlank

def trimStart (text : List Char) : List Char := text.dropWhile isBlank

/-- Drops the longest ending whose characters all satisfy the test. -/
def dropEndWhile (drop : Char → Bool) (text : List Char) : List Char :=
  (text.reverse.dropWhile drop).reverse

def trimEnd (text : List Char) : List Char := dropEndWhile isBlank text

def trim (text : List Char) : List Char := trimEnd (trimStart text)

/-- The pieces between the characters that satisfy the test; one more piece than separators. -/
def splitWhere (separates : Char → Bool) : List Char → List (List Char)
  | [] => [[]]
  | c :: rest =>
      if separates c then [] :: splitWhere separates rest
      else
        match splitWhere separates rest with
        | [] => [[c]]
        | piece :: pieces => (c :: piece) :: pieces

def words (text : List Char) : List (List Char) :=
  (splitWhere isBlank text).filter fun piece => !piece.isEmpty

end Bindery.Text
