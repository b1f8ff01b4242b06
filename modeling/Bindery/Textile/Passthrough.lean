import Bindery.Text.Blank
import Bindery.Text.Lines
import Bindery.Text.Substitution
import Bindery.Text.WordChar

/-!
# Passing text through

What stands between the tags of `notextile` is taken out before any rule is
applied, and put back at the end. In between, a stand-in holds its place: two
characters for private use around the number of the span.
-/

set_option autoImplicit false

namespace Bindery.Textile

def spanOpening : List Char := "<notextile>".toList

def spanClosing : List Char := "</notextile>".toList

/-- Splits a text at the first place where the mark stands. -/
def splitAt? (mark : List Char) : List Char → Option (List Char × List Char)
  | [] => none
  | c :: rest =>
      match Text.dropStart? mark (c :: rest) with
      | some after => some ([], after)
      | none => (splitAt? mark rest).map fun (before, after) => (c :: before, after)

/-- The content of a span at the start of the text, and the length of the span. -/
def span? (text : List Char) : Option (List Char × Nat) := do
  let inside ← Text.dropStart? spanOpening text
  let (content, _) ← splitAt? spanClosing inside
  return (content, spanOpening.length + content.length + spanClosing.length)

/-- The contents of all spans, in order. The number counts the characters of the last span
that are still to come. -/
def spansAfter : Nat → List Char → List (List Char)
  | _, [] => []
  | taken + 1, _ :: rest => spansAfter taken rest
  | 0, c :: rest =>
      match span? (c :: rest) with
      | some (content, length) => content :: spansAfter (length - 1) rest
      | none => spansAfter 0 rest

def spans (text : List Char) : List (List Char) := spansAfter 0 text

def opener : Char := '\uE000'

def closer : Char := '\uE001'

/-- The stand-in for the span of this number. -/
def standIn (index : Nat) : List Char := opener :: (toString index).toList ++ [closer]

/-- The text with a stand-in for each span. The first number counts the characters of the
last span that are still to come, the second one the spans so far. -/
def liftAfter : Nat → Nat → List Char → List Char
  | _, _, [] => []
  | taken + 1, index, _ :: rest => liftAfter taken index rest
  | 0, index, c :: rest =>
      match span? (c :: rest) with
      | some (_, length) => standIn index ++ liftAfter (length - 1) (index + 1) rest
      | none => c :: liftAfter 0 index rest

def lift (text : List Char) : List Char := liftAfter 0 0 text

/-- The digits of a stand-in at the start of the text. -/
def standInDigits? : List Char → Option (List Char)
  | c :: rest =>
      if c = opener then
        let digits := rest.takeWhile Text.isDecimalDigit
        match rest.drop digits.length with
        | d :: _ => if d = closer && !digits.isEmpty then some digits else none
        | [] => none
      else none
  | [] => none

/-- Whether the text is a stand-in and nothing else. -/
def isStandIn (text : List Char) : Bool :=
  match standInDigits? text with
  | some digits => text.length = digits.length + 2
  | none => false

/-- The number that ASCII digits stand for, if it fits in 64 bits. -/
def index? (digits : List Char) : Option Nat :=
  if digits.all Char.isDigit then
    let value := digits.foldl (fun value c => value * 10 + (c.toNat - '0'.toNat)) 0
    if value < UInt64.size then some value else none
  else none

/-- Puts a span in the place of its stand-in. A number without a span leaves nothing. -/
def restoreRule (contents : List (List Char)) : Text.Rule := fun text =>
  (standInDigits? text).map fun digits =>
    (digits.length + 2, ((index? digits).bind (contents[·]?)).getD [])

def restore (contents : List (List Char)) (text : List Char) : List Char :=
  Text.substitute (restoreRule contents) text

end Bindery.Textile
