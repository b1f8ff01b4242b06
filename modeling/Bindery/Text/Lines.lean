/-!
# Lines

A line ends at a line feed; one carriage return before it belongs to the
ending. The text after the last line feed is a line only if it is not empty.
-/

set_option autoImplicit false

namespace Bindery.Text

def lines : List Char → List (List Char)
  | [] => []
  | '\n' :: rest => [] :: lines rest
  | '\r' :: '\n' :: rest => [] :: lines rest
  | c :: rest =>
      match lines rest with
      | [] => [[c]]
      | line :: others => (c :: line) :: others

def join (separator : List Char) (pieces : List (List Char)) : List Char :=
  List.intercalate separator pieces

/-- The text before the first separator and the text after it, if there is one. -/
def splitOnce (separator : Char) : List Char → Option (List Char × List Char)
  | [] => none
  | c :: rest =>
      if c = separator then some ([], rest)
      else (splitOnce separator rest).map fun (before, after) => (c :: before, after)

/-- What follows the given beginning, if the text starts with it. -/
def dropStart? : List Char → List Char → Option (List Char)
  | [], text => some text
  | _ :: _, [] => none
  | c :: start, d :: rest => if c = d then dropStart? start rest else none

def hasInfix (needle : List Char) : List Char → Bool
  | [] => needle.isEmpty
  | c :: rest => (dropStart? needle (c :: rest)).isSome || hasInfix needle rest

/-- Writes each line ending of a carriage return and a line feed as a line feed alone. -/
def unixEndings : List Char → List Char
  | [] => []
  | '\r' :: '\n' :: rest => '\n' :: unixEndings rest
  | c :: rest => c :: unixEndings rest

end Bindery.Text
