import Bindery.Document
import Bindery.Proofs.Footnote.Stray
import Bindery.Proofs.Outcome

/-!
# Links that follow their notes

A link and a note with the number it names stay together exactly if they are in
one scope. All that stands in a file is in the scope of the file, up to the next
element that opens a scope itself: one of the class of a chapter or of a file, or
a callout that holds a footnote.
-/

set_option autoImplicit false

namespace Bindery.Footnote

open Html (Place)

/-- The link at a place points at the element at another one, and it is not one of those that are
counted as pointing nowhere. -/
def Follows (body : Html.Node) (start : Nat) (link target : Place) (number : Nat) : Prop :=
  PointsAt (reconcileTree start body) link target ∧ ¬ StrayLink body link ⟨.note, number⟩

theorem Defines.newId {body : Html.Node} (start : Nat) {place : Place} {note : Note}
    (defined : Defines body place note) :
    ∃ after, (reconcileTree start body).labelAt? place = some after ∧
      after.attribute? "id" = some (Marker.id ⟨.note, newNumber body start note⟩) := by
  obtain ⟨scope, number⟩ := note
  obtain ⟨carries, rfl⟩ := id defined
  obtain ⟨-, before, selected, -⟩ := id carries
  obtain ⟨after, found, renumbered⟩ := renumbered_of_labelAt?_before start selected
  exact ⟨after, found, renumbered.id _ carries ⟨place, defined⟩⟩

theorem LinksTo.newHref {body : Html.Node} (start : Nat) {place : Place} {number : Nat}
    (links : LinksTo body place ⟨.note, number⟩)
    (present : HasNote body (scopeOf body place) number) :
    ∃ after, (reconcileTree start body).labelAt? place = some after ∧
      after.attribute? "href" =
        some (Marker.link ⟨.note, newNumber body start (scopeOf body place, number)⟩) := by
  obtain ⟨-, before, selected, -⟩ := id links
  obtain ⟨after, found, renumbered⟩ := renumbered_of_labelAt?_before start selected
  exact ⟨after, found, renumbered.href _ links present⟩

/-- A link follows the note with its number exactly if both are in one scope. -/
theorem follows_iff {body : Html.Node} {start : Nat} {link target : Place} {number : Nat}
    (links : LinksTo body link ⟨.note, number⟩) (carries : Carries body target ⟨.note, number⟩) :
    Follows body start link target number ↔ scopeOf body link = scopeOf body target := by
  have defined : Defines body target (scopeOf body target, number) := ⟨carries, rfl⟩
  obtain ⟨owner, ownerFound, written⟩ := defined.newId start
  constructor
  · -- The new numbers tell the notes apart, and so the scopes.
    rintro ⟨⟨source, other, id, sourceFound, otherFound, href, named⟩, paired⟩
    obtain rfl := Option.some.inj (otherFound.symm.trans ownerFound)
    have present : HasNote body (scopeOf body link) number :=
      of_not_not fun missing => paired ⟨links, missing⟩
    obtain ⟨after, found, target⟩ := links.newHref start present
    obtain rfl := Option.some.inj (sourceFound.symm.trans found)
    obtain rfl := Option.some.inj (named.symm.trans written)
    have same := (String.append_right_inj "#").mp (Option.some.inj (href.symm.trans target))
    have numbers := (Marker.mk.inj (Marker.id_injective same)).2
    exact (Prod.mk.inj (newNumber_injective (mem_notesOf.mpr ⟨_, defined⟩) numbers)).1.symm
  · intro same
    have present : HasNote body (scopeOf body link) number := ⟨target, carries, same.symm⟩
    obtain ⟨source, sourceFound, href⟩ := links.newHref start present
    rw [← same] at written
    exact ⟨⟨source, owner, _, sourceFound, ownerFound, href, written⟩, fun stray => stray.2 present⟩

/-- An element is in the scope of the one above it exactly if that opens a scope and nothing
between them does. -/
theorem scopeOf_append_eq_iff {body : Html.Node} {above below : Place} :
    scopeOf body (above ++ below) = some above ↔
      opensAt body above = true ∧
        ∀ inner, inner <+: below → inner ≠ [] → opensAt body (above ++ inner) = false := by
  -- The last element either opens a scope or has the scope of the one above it.
  induction below using List.reverseRecOn with
  | nil =>
      rw [List.append_nil]
      constructor
      · intro found
        exact ⟨opensAt_of_scopeOf found, fun inner inside some =>
          absurd (List.prefix_nil.mp inside) some⟩
      · exact fun opening => scopeOf_of_opensAt opening.1
  | append_singleton below index ih =>
      rw [← List.append_assoc, scopeOf_concat]
      split
      · next opening =>
          refine iff_of_false (fun same => ?_) fun nothing => ?_
          · have length := congrArg List.length (Option.some.inj same)
            simp at length
          · have closed := nothing.2 _ List.prefix_rfl (by simp)
            rw [← List.append_assoc, opening] at closed
            cases closed
      · next closed =>
          simp only [ih, List.prefix_concat_iff]
          refine and_congr_right fun _ => ⟨fun below inner inside some => ?_,
            fun all inner inside => all inner (.inr inside)⟩
          rcases inside with rfl | inside
          · rw [← List.append_assoc]
            exact Bool.eq_false_iff.mpr closed
          · exact below inner inside some

/-- The element of a callout opens a scope exactly if it holds a footnote or has the class of a
chapter or of a file. -/
theorem opensScope_container {name : String} {children : List Html.Node} {element : Html.Element}
    (own : (Callout.container name children).label? = some element) :
    opensScope element = true ↔
      (Html.Tree.labelsAll children).any concerns = true ∨
        scopeClasses.any (fun scope => (Text.words name.toList).contains scope.toList) = true := by
  let plain := Html.Element.ofName "div" [("class", name)]
  have classes : ∀ other : Html.Element, other.attribute? "class" = some name →
      scopeClasses.any other.hasClass =
        scopeClasses.any fun scope => (Text.words name.toList).contains scope.toList := by
    intro other given
    have same : other.hasClass = fun scope => (Text.words name.toList).contains scope.toList := by
      funext scope
      rw [Html.Element.hasClass, given]
    rw [same]
  unfold Callout.container at own
  dsimp only at own
  split at own
  · next marked =>
      obtain rfl := Option.some.inj own
      have own : isMarked (plain.setAttribute scopeAttribute "") = true := by simp [isMarked]
      rw [opensScope, own]
      simp [marked]
  · next unmarked =>
      obtain rfl := Option.some.inj own
      have none : isMarked plain = false := rfl
      rw [opensScope, none, Bool.false_or, classes plain rfl]
      simp [unmarked]

end Bindery.Footnote

namespace Bindery

open Footnote

/-- A document is the result of one pass over its chapters. -/
theorem Pipeline.renderDocument_of_rendered {pipeline : Pipeline} {plain : Bool}
    {chapters : List Chapter} {fragments : List String} (counter : Counter)
    (rendered : chapters.mapM (pipeline.renderNamed plain) = .ok fragments) :
    pipeline.renderDocument plain chapters counter =
      reconcile (String.intercalate separator fragments) counter := by
  rw [Pipeline.renderDocument, rendered]
  rfl

/-- In a whole document a link follows the note with its number exactly if both are in one scope,
and the scope of a file reaches as far down as nothing else opens one. -/
theorem Pipeline.renderDocument_follows_iff {pipeline : Pipeline} {plain : Bool}
    {chapters : List Chapter} {fragments : List String} {body : Html.Node} (counter : Counter)
    (rendered : chapters.mapM (pipeline.renderNamed plain) = .ok fragments)
    (parsed : Html.parseBody? (String.intercalate separator fragments) = some body) :
    ∃ result after,
      pipeline.renderDocument plain chapters counter = .ok (result, after) ∧
      Written (String.intercalate separator fragments) body (reconcileTree counter.next body)
        result ∧
      result.danglingLinks = {place | ∃ marker, StrayLink body place marker}.ncard ∧
      (∀ link target number,
        LinksTo body link ⟨.note, number⟩ → Carries body target ⟨.note, number⟩ →
          (Follows body counter.next link target number ↔
            scopeOf body link = scopeOf body target)) ∧
      (∀ file below, scopeOf body (file ++ below) = some file ↔
        opensAt body file = true ∧
          ∀ inner, inner <+: below → inner ≠ [] → opensAt body (file ++ inner) = false) := by
  obtain ⟨result, reconciled, written, -, dangling⟩ := reconcile_eq counter parsed
  exact ⟨result, counter.advance (notesOf body).length,
    (renderDocument_of_rendered counter rendered).trans reconciled, written, dangling,
    fun _ _ _ => follows_iff, fun _ _ => scopeOf_append_eq_iff⟩

/-- Chapters of one file each, and no code. -/
def filePipeline (files : List (String × String)) : Pipeline where
  snippets := ⟨"code", fun path => (files.lookup path).elim (.error .missing) .ok,
    Snippet.plainHighlighter⟩
  markup := .standard

/-- A chapter of one file with a link and its note. -/
def pairedText : String :=
  "<div class=\"chapter\">\n<div class=\"chapter-file\">\n" ++
    "<a href=\"#fn2\">2</a><p id=\"fn2\">b</p>\n</div>\n</div>"

def pairedBody : Html.Node :=
  .element (.ofName "body" []) [
    .element (.ofName "div" [("class", "chapter")]) [.text "\n",
      .element (.ofName "div" [("class", "chapter-file")]) [.text "\n",
        .element (.ofName "a" [("href", "#fn2")]) [.text "2"],
        .element (.ofName "p" [("id", "fn2")]) [.text "b"], .text "\n"],
      .text "\n"]]

/-- The link and the note are in the scope of their file. -/
theorem Pipeline.renderDocument_follows_within_file :
    [Chapter.mk "a" ["a.html"]].mapM ((filePipeline
        [("a.html", "<a href=\"#fn2\">2</a><p id=\"fn2\">b</p>")]).renderNamed false) =
        .ok [pairedText] ∧
      Html.parseBody? (String.intercalate separator [pairedText]) = some pairedBody ∧
      LinksTo pairedBody [0, 1, 1] ⟨.note, 2⟩ ∧ Carries pairedBody [0, 1, 2] ⟨.note, 2⟩ ∧
      Follows pairedBody 1 [0, 1, 1] [0, 1, 2] 2 := by
  have rendered : [Chapter.mk "a" ["a.html"]].mapM ((filePipeline
      [("a.html", "<a href=\"#fn2\">2</a><p id=\"fn2\">b</p>")]).renderNamed false) =
        .ok [pairedText] := by decide +kernel
  have parsed : Html.parseBody? (String.intercalate separator [pairedText]) = some pairedBody := by
    decide +kernel
  have links : LinksTo pairedBody [0, 1, 1] ⟨.note, 2⟩ := ⟨by decide, _, rfl, rfl, rfl⟩
  have carries : Carries pairedBody [0, 1, 2] ⟨.note, 2⟩ := ⟨by decide, _, rfl, rfl⟩
  obtain ⟨_, _, _, _, _, follows, _⟩ :=
    Pipeline.renderDocument_follows_iff .start rendered parsed
  exact ⟨rendered, parsed, links, carries, (follows _ _ _ links carries).mpr (by decide +kernel)⟩

/-- A chapter of one file with a link, the note of which stands in a callout. -/
def splitText : String :=
  "<div class=\"chapter\">\n<div class=\"chapter-file\">\n" ++
    "<p>See <a href=\"#fn1\">1</a></p>\n" ++
    "<div class=\"tip\" data-footnote-scope=\"\"><p id=\"fn1\">Note</p>&#10;</div>\n</div>\n</div>"

def splitBody : Html.Node :=
  .element (.ofName "body" []) [
    .element (.ofName "div" [("class", "chapter")]) [.text "\n",
      .element (.ofName "div" [("class", "chapter-file")]) [.text "\n",
        .element (.ofName "p" []) [.text "See ",
          .element (.ofName "a" [("href", "#fn1")]) [.text "1"]],
        .text "\n",
        .element (.ofName "div" [("class", "tip"), ("data-footnote-scope", "")]) [
          .element (.ofName "p" [("id", "fn1")]) [.text "Note"], .text "\n"],
        .text "\n"],
      .text "\n"]]

/-- The callout opens a scope for the note that it holds, so the link in the same file is left
behind and counted. -/
theorem Pipeline.renderDocument_callout_splits_file :
    let pipeline := filePipeline [("a.html",
      "<p>See <a href=\"#fn1\">1</a></p>\n&&& tip\n<p id=\"fn1\">Note</p>\n&&&")]
    let html := "<div class=\"chapter\">\n<div class=\"chapter-file\">\n" ++
      "<p>See <a href=\"#fn1\">1</a></p>\n<div class=\"tip\"><p id=\"fn1\">Note</p>\n</div>\n" ++
      "</div>\n</div>"
    [Chapter.mk "a" ["a.html"]].mapM (pipeline.renderNamed false) = .ok [splitText] ∧
      pipeline.renderDocument false [⟨"a", ["a.html"]⟩] .start =
        .ok (⟨html, 1, 1⟩, Counter.start.advance 1) ∧
      Html.parseBody? (String.intercalate separator [splitText]) = some splitBody ∧
      LinksTo splitBody [0, 1, 1, 1] ⟨.note, 1⟩ ∧ Carries splitBody [0, 1, 3, 0] ⟨.note, 1⟩ ∧
      StrayLink splitBody [0, 1, 1, 1] ⟨.note, 1⟩ ∧
      ¬ Follows splitBody 1 [0, 1, 1, 1] [0, 1, 3, 0] 1 := by
  intro pipeline html
  have rendered : [Chapter.mk "a" ["a.html"]].mapM (pipeline.renderNamed false) =
      .ok [splitText] := by decide +kernel
  have parsed : Html.parseBody? (String.intercalate separator [splitText]) = some splitBody := by
    decide +kernel
  have document : pipeline.renderDocument false [⟨"a", ["a.html"]⟩] .start =
      .ok (⟨html, 1, 1⟩, Counter.start.advance 1) := by
    rw [Pipeline.renderDocument_of_rendered .start rendered, reconcile_of_parsed .start parsed]
    decide +kernel
  have links : LinksTo splitBody [0, 1, 1, 1] ⟨.note, 1⟩ := ⟨by decide, _, rfl, rfl, rfl⟩
  have missing : (scopeOf splitBody [0, 1, 1, 1], 1) ∉ notesOf splitBody := by decide +kernel
  have stray : StrayLink splitBody [0, 1, 1, 1] ⟨.note, 1⟩ := ⟨links, missing ∘ mem_notesOf.mpr⟩
  exact ⟨rendered, document, parsed, links, ⟨by decide, _, rfl, rfl⟩, stray,
    fun follows => follows.2 stray⟩

end Bindery
