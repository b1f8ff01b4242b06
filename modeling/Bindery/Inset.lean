import Bindery.Text.Lines

/-!
# Insets

A marker opens an inset, and the next one closes it. A marker that
nothing closes is ordinary text.
-/

set_option autoImplicit false

namespace Bindery.Inset

def addToFirst (c : Char) : List (List Char) → List (List Char)
  | [] => [[c]]
  | piece :: rest => (c :: piece) :: rest

/-- Cuts a text at each marker, leftmost first. The number counts the characters of the
last marker that are still to come. -/
def cutAfter (marker : List Char) : Nat → List Char → List (List Char)
  | _, [] => [[]]
  | taken + 1, _ :: rest => cutAfter marker taken rest
  | 0, c :: rest =>
      if (Text.dropStart? marker (c :: rest)).isSome then
        [] :: cutAfter marker (marker.length - 1) rest
      else addToFirst c (cutAfter marker 0 rest)

def cut (marker text : List Char) : List (List Char) := cutAfter marker 0 text

/-- A part of a text, outside or inside a pair of markers. -/
inductive Part where
  | plain (content : List Char)
  | inset (content : List Char)
  deriving Repr, DecidableEq, Inhabited

/-- Pieces are outside and inside by turns. The last marker closes nothing if it opens. -/
def ofPieces (marker : List Char) : List (List Char) → List Part
  | [] => []
  | [last] => [.plain last]
  | [before, unclosed] => [.plain before, .plain (marker ++ unclosed)]
  | before :: inside :: after :: rest =>
      .plain before :: .inset inside :: ofPieces marker (after :: rest)

def parts (marker text : List Char) : List Part := ofPieces marker (cut marker text)

/-- Splits an inset into its first line and the lines below. -/
def headerAndBody (inset : List Char) : List Char × List Char :=
  (Text.splitOnce '\n' inset).getD (inset, [])

/-- Puts HTML on one line: a line ending becomes a reference to a line feed. -/
def foldLines (html : List Char) : List Char :=
  (Text.unixEndings html).flatMap fun c => if c = '\n' then "&#10;".toList else [c]

end Bindery.Inset
