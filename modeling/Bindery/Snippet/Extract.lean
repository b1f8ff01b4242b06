import Bindery.Error
import Bindery.Snippet.Indent
import Bindery.Text.Pattern

/-!
# Parts of a code file

A part is a range of lines, or a block between a line that marks its beginning
and a line that marks its end.
-/

set_option autoImplicit false

namespace Bindery.Snippet

/-! ## Ranges of lines -/

/-- Lines are counted from one, and the last one belongs to the range. -/
structure LineRange where
  first : Nat
  last : Nat
  positive : 0 < first
  ordered : first ≤ last
  deriving Repr

/-- The value of ASCII digits in base ten, if it is below 2 to the 64th. -/
def decimal? (digits : List Char) : Option Nat :=
  if digits.isEmpty || !digits.all Char.isDigit then none
  else
    let value := digits.foldl (fun value c => value * 10 + (c.toNat - '0'.toNat)) 0
    if value < UInt64.size then some value else none

/-- The number that a numeral stands for. It may have a plus sign in front. -/
def lineNumber? : List Char → Option Nat
  | '+' :: digits => decimal? digits
  | digits => decimal? digits

/-- Two line numbers in order, with a comma between them. -/
def LineRange.parse? (reference : List Char) : Option LineRange := do
  let (first, last) ← Text.splitOnce ',' reference
  let first ← lineNumber? (Text.trim first)
  let last ← lineNumber? (Text.trim last)
  if proper : 0 < first ∧ first ≤ last then some ⟨first, last, proper.1, proper.2⟩ else none

/-- The items from one place of a list up to another one. -/
def slice {α : Type} (items : List α) (start stop : Nat)
    (_places : start ≤ stop ∧ stop ≤ items.length) : List α :=
  (items.drop start).take (stop - start)

/-- The places between which the lines of a range are. -/
theorem LineRange.places (range : LineRange) {count : Nat} (begins : range.first ≤ count) :
    range.first - 1 ≤ min range.last count ∧ min range.last count ≤ count := by
  have := range.ordered
  omega

/-- The lines of a range. A range may end behind the last line but not begin there. -/
def LineRange.select? (range : LineRange) (lines : List (List Char)) :
    Option (List (List Char)) :=
  if begins : range.first ≤ lines.length then
    some (slice lines (range.first - 1) (min range.last lines.length) (range.places begins))
  else none

def invalidRange (reference : List Char) : SnippetError :=
  .invalidRange (String.ofList reference)

def LineRange.parse (reference : List Char) : Except SnippetError LineRange :=
  match parse? reference with
  | some range => .ok range
  | none => .error (invalidRange reference)

/-- The lines of a range, without the indentation that they share. -/
def extractRange (content reference : List Char) : Except SnippetError (List Char) := do
  let range ← LineRange.parse reference
  match range.select? (Text.lines content) with
  | some lines => return stripIndent (Text.join ['\n'] lines)
  | none => .error (invalidRange reference)

/-! ## Named blocks -/

def beginMark : List Char := "@begin:".toList

def endMark : List Char := "@end:".toList

/-- A mark with the name behind it as a whole word, spaces in between or not. -/
def markWith {α : Type} (mark name : List Char) (next : Text.Matcher α) : Text.Matcher α :=
  Text.inAnyCase mark (Text.manyOf (· == ' ') (Text.inAnyCase name (Text.wordBorder next)))

/-- The rest of a line, and its line feed. -/
def restOfLine {α : Type} (next : Text.Matcher α) : Text.Matcher α :=
  Text.manyOf (· != '\n') (Text.one (· == '\n') next)

/-- The mark that ends a block of the name, with what stands before it on its line. -/
def endPattern (name taken : List Char) : Text.Matcher (List Char) :=
  Text.manyOf (· != '\n') (markWith endMark name fun _ _ => some taken.reverse)

/-- A block from one mark to the other. What it gives is the text between their lines. -/
def blockPattern (name : List Char) : Text.Matcher (List Char) :=
  markWith beginMark name (restOfLine (Text.fewOf (endPattern name) []))

def isBlockName (name : List Char) : Bool := !name.isEmpty && name.all Text.isWordChar

/-- Drops one line feed at the end. -/
def dropLineFeed (text : List Char) : List Char :=
  if text.getLast? = some '\n' then text.dropLast else text

/-- The text of a block, without the indentation that its lines share. -/
def extractBlock (content name : List Char) : Except SnippetError (List Char) :=
  match if isBlockName name then Text.firstMatch (blockPattern name) none content else none with
  | some inside => .ok (stripIndent (dropLineFeed inside))
  | none => .error (.missingBlock (String.ofList name))

/-! ## Marks in the code shown -/

/-- The rest of a line, and its line feed unless the text ends there. -/
def restOfAnyLine {α : Type} (next : Text.Matcher α) : Text.Matcher α :=
  Text.manyOf (· != '\n') (Text.either (Text.one (· == '\n') next) (Text.lineEnd next))

/-- A line that begins or ends a block. What it gives is the text behind the line. -/
def markLinePattern : Text.Matcher (List Char) :=
  let rest : Text.Matcher (List Char) := restOfAnyLine fun _ behind => some behind
  Text.lineStart <| Text.manyOf (· != '\n') <|
    Text.either (Text.inAnyCase beginMark rest) (Text.inAnyCase endMark rest)

/-- Drops every line that begins or ends a block. -/
def dropMarkLines (code : List Char) : List Char := Text.removeAll markLinePattern code

/-- Drops the line feeds at the end. -/
def trimLineFeeds (code : List Char) : List Char := Text.dropEndWhile (· == '\n') code

end Bindery.Snippet
