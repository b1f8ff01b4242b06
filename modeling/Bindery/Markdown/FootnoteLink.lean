import Bindery.Markdown.Event

/-!
# Footnote links

Turns footnote references and definitions into HTML with linked ids. A label
takes the next number where it first appears, in a reference or a definition.
-/

set_option autoImplicit false

namespace Bindery.Markdown

/-- The labels that have a number, in the order of their numbers, which start at one. -/
structure FootnoteNumbers where
  labels : List (List Char)
  deriving Repr, DecidableEq

namespace FootnoteNumbers

def empty : FootnoteNumbers := ⟨[]⟩

/-- The number of the label as it is written, and the table that holds it. -/
def number (numbers : FootnoteNumbers) (label : List Char) : Nat × FootnoteNumbers :=
  match numbers.labels.idxOf? label with
  | some index => (index + 1, numbers)
  | none => (numbers.labels.length + 1, ⟨numbers.labels ++ [label]⟩)

end FootnoteNumbers

/-- The mark in the text: a superscript link to the definition. -/
def referenceHtml (number : Nat) : List Char :=
  let n := (toString number).toList
  "<sup class=\"footnote\" id=\"fnr".toList ++ n ++ "\"><a href=\"#fn".toList ++ n ++
    "\">".toList ++ n ++ "</a></sup>".toList

def definitionStartHtml (number : Nat) : List Char :=
  "<div class=\"footnote\" id=\"fn".toList ++ (toString number).toList ++ "\">".toList

/-- The end of a definition, with the link back to the text. -/
def definitionEndHtml : Option Nat → List Char
  | some number =>
      "<a href=\"#fnr".toList ++ (toString number).toList ++
        "\" class=\"footnote-backref\">&#8617;</a></div>\n".toList
  | none => "</div>\n".toList

/-- The numbers given so far, and the number of the definition that was opened last if it is still
open. Only one open definition is remembered. -/
structure FootnoteLinking where
  numbers : FootnoteNumbers
  openDefinition : Option Nat
  deriving Repr, DecidableEq

def FootnoteLinking.initial : FootnoteLinking := ⟨.empty, none⟩

/-- Replaces a footnote event by HTML and leaves every other event alone. -/
def FootnoteLinking.step (linking : FootnoteLinking) : Event → FootnoteLinking × Event
  | .footnoteReference label =>
      let (number, numbers) := linking.numbers.number label
      ({ linking with numbers := numbers }, .html (referenceHtml number))
  | .start (.footnote label) =>
      let (number, numbers) := linking.numbers.number label
      (⟨numbers, some number⟩, .html (definitionStartHtml number))
  | .finish (.footnote _) =>
      ({ linking with openDefinition := none }, .html (definitionEndHtml linking.openDefinition))
  | event => (linking, event)

def linkFootnotesFrom (linking : FootnoteLinking) : List Event → List Event
  | [] => []
  | event :: rest =>
      let (next, replaced) := linking.step event
      replaced :: linkFootnotesFrom next rest

def linkFootnotes (events : List Event) : List Event :=
  linkFootnotesFrom .initial events

end Bindery.Markdown
