import Bindery.Proofs.Footnote.Following
import Bindery.Proofs.Footnote.Part

/-!
# Chapters and the notes of others

The notes of a document are those of its chapters, each counted alone, exactly
if no two chapters have a note in common. Then too no two elements of different
chapters share an id. A chapter that keeps its notes in scopes of its own has
none in common with any other.
-/

set_option autoImplicit false

namespace Bindery

open Footnote

/-- A pair of chapters with one file each. -/
def pairOfChapters : List Chapter := [⟨"a", ["a.html"]⟩, ⟨"b", ["b.html"]⟩]

/-- A chapter of one file with a note in it. -/
def heldText (note : String) : String :=
  "<div class=\"chapter\">\n<div class=\"chapter-file\">\n<p id=\"fn1\">" ++ note ++
    "</p>\n</div>\n</div>"

def heldNode (note : String) : Html.Node :=
  .element (.ofName "div" [("class", "chapter")]) [.text "\n",
    .element (.ofName "div" [("class", "chapter-file")]) [.text "\n",
      .element (.ofName "p" [("id", "fn1")]) [.text note], .text "\n"],
    .text "\n"]

def heldBody : Html.Node :=
  .element (.ofName "body" []) [heldNode "a", .text "\n\n", heldNode "b"]

/-- A chapter whose elements start at a child of the body. -/
def partAt (offset : Nat) (nodes : List Html.Node) : Part where
  body := .element (.ofName "body" []) nodes
  position
    | [] => []
    | index :: rest => (offset + index) :: rest
  around := none
  root := rfl
  unnoted := unnoted_of_no_id rfl

def heldParts : List Part := [partAt 0 [heldNode "a"], partAt 2 [heldNode "b"]]

/-- A chapter of one file that ends its own chapter before the note. -/
def strayText (note : String) : String :=
  "<div class=\"chapter\">\n<div class=\"chapter-file\">\n</div></div><p id=\"fn1\">" ++ note ++
    "</p>\n</div>\n</div>"

def strayNodes (note : String) : List Html.Node := [
  .element (.ofName "div" [("class", "chapter")]) [.text "\n",
    .element (.ofName "div" [("class", "chapter-file")]) [.text "\n"]],
  .element (.ofName "p" [("id", "fn1")]) [.text note]]

def strayBody : Html.Node :=
  .element (.ofName "body" [])
    (strayNodes "a" ++ .text "\n\n\n\n" :: strayNodes "b" ++ [.text "\n\n"])

def strayParts : List Part := [partAt 0 (strayNodes "a" ++ [.text "\n\n"]),
  partAt 3 (strayNodes "b" ++ [.text "\n\n"])]

end Bindery
