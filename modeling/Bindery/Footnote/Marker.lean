import Bindery.Html.Element

/-!
# Footnote markers

The id of a note is `fn` and its number, and that of a reference to it `fnr` and
the number. A link to either has a number sign in front. The number is positive,
fits in 64 bits and is written without leading zeros.
-/

set_option autoImplicit false

namespace Bindery.Footnote

inductive Kind where
  | note
  | reference
  deriving Repr, DecidableEq, Inhabited

structure Marker where
  kind : Kind
  number : Nat
  deriving Repr, DecidableEq, Inhabited

def Kind.word : Kind → String
  | .note => "fn"
  | .reference => "fnr"

namespace Marker

def id (marker : Marker) : String := marker.kind.word ++ toString marker.number

def link (marker : Marker) : String := "#" ++ marker.id

/-- The value of a run of decimal digits. -/
def decimalValue (digits : List Char) : Nat :=
  digits.foldl (fun value c => value * 10 + (c.toNat - '0'.toNat)) 0

/-- Numbers are below this one. -/
def limit : Nat := UInt64.size

def number? (digits : List Char) : Option Nat :=
  if digits.isEmpty || digits.head? = some '0' || !digits.all Char.isDigit then none
  else
    let value := decimalValue digits
    if value < limit then some value else none

def ofIdChars? : List Char → Option Marker
  | 'f' :: 'n' :: 'r' :: digits => (number? digits).map (⟨.reference, ·⟩)
  | 'f' :: 'n' :: digits => (number? digits).map (⟨.note, ·⟩)
  | _ => none

def ofId? (text : String) : Option Marker := ofIdChars? text.toList

/-- Reads a link as the marker that it points to. -/
def ofLink? (text : String) : Option Marker :=
  match text.toList with
  | '#' :: id => ofIdChars? id
  | _ => none

/-- The marker that is the id of an element. -/
def ofElement? (element : Html.Element) : Option Marker := (element.attribute? "id").bind ofId?

def linkOf? (element : Html.Element) : Option Marker :=
  if element.name = "a" then (element.attribute? "href").bind ofLink? else none

end Marker

def concerns (element : Html.Element) : Bool :=
  (Marker.ofElement? element).isSome || (Marker.linkOf? element).isSome

end Bindery.Footnote
