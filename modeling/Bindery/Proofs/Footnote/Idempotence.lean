import Bindery.Proofs.Footnote.Reconcile

/-!
# Renumbering a second time

The tree that comes out has lost the marks of its scopes, so its notes stand in
larger scopes than before. But their numbers are all different, and in order: a
second pass from the same number gives each of them the number it has.
-/

set_option autoImplicit false

namespace Bindery.Footnote

open Html (Place Element)

/-- The scope of an element is found in the larger scopes from its own one on. -/
theorem scopeOf_of_coarser {fine coarse : Html.Node}
    (opens : ∀ place, opensAt coarse place = true → opensAt fine place = true) (place : Place) :
    scopeOf coarse place = (scopeOf fine place).bind (scopeOf coarse) := by
  -- What opens no smaller scope opens no larger one, so both are looked for further up.
  induction place using List.reverseRecOn with
  | nil =>
      cases opening : opensAt fine [] with
      | true => rw [scopeOf_of_opensAt opening, Option.bind_some]
      | false =>
          have closed : opensAt coarse [] = false :=
            Bool.eq_false_iff.mpr fun open' => by simp [opens [] open'] at opening
          simp [scopeOf_nil, opening, closed]
  | append_singleton above index ih =>
      cases opening : opensAt fine (above ++ [index]) with
      | true => rw [scopeOf_of_opensAt opening, Option.bind_some]
      | false =>
          have closed : opensAt coarse (above ++ [index]) = false :=
            Bool.eq_false_iff.mpr fun open' => by simp [opens _ open'] at opening
          rw [scopeOf_concat, scopeOf_concat, if_neg (by simp [closed]), if_neg (by simp [opening])]
          exact ih

theorem labelAt?_reconcileTree (start : Nat) (node : Html.Node) (place : Place) :
    (reconcileTree start node).labelAt? place =
      (node.labelAt? place).map fun element =>
        (numbering start (withScopes node).labels).relabel
          (scopeNumber node (scopeOf node place), element) := by
  unfold reconcileTree
  dsimp only
  rw [Html.Tree.labelAt?_map, labelAt?_withScopes, Option.map_map]
  rfl

theorem placed_reconcileTree (start : Nat) (node : Html.Node) :
    (reconcileTree start node).placed =
      node.placed.map fun item =>
        (item.1, (numbering start (withScopes node).labels).relabel
          (scopeNumber node (scopeOf node item.1), item.2)) := by
  unfold reconcileTree
  dsimp only
  rw [Html.Tree.placed_map, placed_withScopes, List.map_map]
  rfl

theorem hasClass_relabel (numbers : Numbering) (item : Scoped) :
    (numbers.relabel item).hasClass = item.2.hasClass := by
  have linkStep := renumberLink_revalued numbers item.1
    (numbers.renumberId (item.1, item.2.removeAttribute scopeAttribute))
  have idStep := renumberId_revalued numbers item.1 (item.2.removeAttribute scopeAttribute)
  have same : (numbers.relabel item).attribute? "class" = item.2.attribute? "class" := by
    rw [Numbering.relabel, linkStep.values "class" (by decide), idStep.values "class" (by decide),
      item.2.attribute?_removeAttribute_ne (by decide)]
  funext className
  rw [Element.hasClass, Element.hasClass, same]

/-- Scopes that are left are opened by their class, which they had before. -/
theorem opensAt_of_reconcileTree {start : Nat} {node : Html.Node} {place : Place}
    (opening : opensAt (reconcileTree start node) place = true) : opensAt node place = true := by
  obtain ⟨after, found, opens⟩ := (Option.any_eq_true _ _).mp opening
  have unmarked := (reconcileTree_renumbered start node).unmarked place after found
  rw [labelAt?_reconcileTree] at found
  obtain ⟨before, selected, rfl⟩ := Option.map_eq_some_iff.mp found
  have byClass : scopeClasses.any before.hasClass = true := by
    rw [opensScope, isMarked, unmarked, hasClass_relabel] at opens
    exact opens
  rw [opensAt, selected, Option.any_some, opensScope, byClass, Bool.or_true]

/-- What becomes of a note: its scope is the one around its old scope. -/
def renumberedNote (node : Html.Node) (start : Nat) (note : Note) : Note :=
  (note.1.bind (scopeOf (reconcileTree start node)), newNumber node start note)

section Again

variable {node : Html.Node} {start : Nat} (positive : 0 < start)
  (bound : start + (notesOf node).length < Marker.limit)

include positive bound

theorem noteAt?_reconcileTree (place : Place) :
    noteAt? (reconcileTree start node) place =
      (noteAt? node place).map (renumberedNote node start) := by
  have scope : scopeOf (reconcileTree start node) place =
      (scopeOf node place).bind (scopeOf (reconcileTree start node)) :=
    scopeOf_of_coarser (fun _ => opensAt_of_reconcileTree) place
  ext ⟨owner, number⟩
  simp only [noteAt?_eq_some_iff, Option.map_eq_some_iff, Defines, carries_note_iff positive bound]
  constructor
  · rintro ⟨⟨note, defined, given⟩, same⟩
    refine ⟨note, defined, ?_⟩
    rw [renumberedNote, ← defined.2, ← scope, same, given]
  · rintro ⟨note, defined, same⟩
    obtain ⟨sameScope, given⟩ := Prod.mk.inj same
    refine ⟨⟨note, defined, given⟩, ?_⟩
    rw [scope, defined.2, sameScope]

/-- The notes are the same and stand in the same order. -/
theorem notesOf_reconcileTree :
    notesOf (reconcileTree start node) = (notesOf node).map (renumberedNote node start) := by
  have read : ((reconcileTree start node).placed.filterMap fun item =>
      noteAt? (reconcileTree start node) item.1) =
        (node.placed.filterMap fun item => noteAt? node item.1).map
          (renumberedNote node start) := by
    rw [placed_reconcileTree, List.filterMap_map, List.map_filterMap]
    exact List.filterMap_congr fun item _ => noteAt?_reconcileTree positive bound item.1
  rw [notesOf, read, Distinct.eraseDups_map]
  · rfl
  · intro left leftMember right _ same
    exact newNumber_injective (List.mem_eraseDups.mpr leftMember) (congrArg Prod.snd same)

theorem newNumber_reconcileTree {note : Note} (listed : note ∈ notesOf (reconcileTree start node)) :
    newNumber (reconcileTree start node) start note = note.2 := by
  rw [notesOf_reconcileTree positive bound] at listed
  obtain ⟨before, listed, rfl⟩ := List.mem_map.mp listed
  rw [newNumber, notesOf_reconcileTree positive bound, Distinct.idxOf_map]
  · rfl
  · intro other otherListed same
    exact newNumber_injective otherListed (congrArg Prod.snd same)

end Again

/-- A second pass over the tree that came out, from the same number, changes nothing, finds as many
notes and leaves the counter at the same number. That goes for the texts of both trees as well. -/
theorem reconcile_idempotent {body : Html.Node} (counter : Counter)
    (bound : counter.next + (notesOf body).length < Marker.limit) :
    let tree := reconcileTree counter.next body
    reconcileTree counter.next tree = tree ∧ definitions tree = definitions body ∧
      ∀ html again, Html.parseBody? html = some body → Html.parseBody? again = some tree →
        ∃ first second after, reconcile html counter = .ok (first, after) ∧
          reconcile again counter = .ok (second, after) ∧
          second.definitions = first.definitions ∧
          Written html body tree first ∧ Written again tree tree second := by
  intro tree
  have kept : reconcileTree counter.next tree = tree :=
    reconcileTree_eq_self (reconcileTree_renumbered counter.next body).unmarked
      fun note listed => newNumber_reconcileTree counter.next_pos bound listed
  have length : (notesOf tree).length = (notesOf body).length := by
    rw [notesOf_reconcileTree counter.next_pos bound, List.length_map]
  refine ⟨kept, ?_, ?_⟩
  · rw [definitions_eq_length, definitions_eq_length, length]
  · intro html again parsed parsedAgain
    obtain ⟨first, ran, written, numbered, -⟩ := reconcile_eq counter parsed
    obtain ⟨second, ranAgain, writtenAgain, numberedAgain, -⟩ := reconcile_eq counter parsedAgain
    rw [length] at ranAgain numberedAgain
    rw [kept] at writtenAgain
    exact ⟨first, second, _, ran, ranAgain, numberedAgain.trans numbered.symm, written,
      writtenAgain⟩

/-- The mark of the callout is gone after the first pass, and its link to note 2, which had no note
there, then points to the note of the file. Its number stays. -/
theorem reconcile_idempotent_merged :
    let html := "<div class=\"chapter-file\"><div data-footnote-scope=\"\"><a href=\"#fn2\">2</a>" ++
      "<p id=\"fn1\">a</p></div><p id=\"fn1\">b</p></div>"
    let again := "<div class=\"chapter-file\"><div><a href=\"#fn2\">2</a>" ++
      "<p id=\"fn1\">a</p></div><p id=\"fn2\">b</p></div>"
    let file (callout : List (String × String)) (number : String) : Html.Node :=
      .element (.ofName "body" []) [.element (.ofName "div" [("class", "chapter-file")]) [
        .element (.ofName "div" callout) [
          .element (.ofName "a" [("href", "#fn2")]) [.text "2"],
          .element (.ofName "p" [("id", "fn1")]) [.text "a"]],
        .element (.ofName "p" [("id", number)]) [.text "b"]]]
    let body := file [("data-footnote-scope", "")] "fn1"
    let tree := file [] "fn2"
    1 + (notesOf body).length < Marker.limit ∧ reconcileTree 1 body = tree ∧
      StrayLink body [0, 0, 0] ⟨.note, 2⟩ ∧ ¬ StrayLink tree [0, 0, 0] ⟨.note, 2⟩ ∧
      reconcileTree 1 tree = tree ∧ definitions tree = definitions body ∧
      ∃ first second after, reconcile html .start = .ok (first, after) ∧
        reconcile again .start = .ok (second, after) ∧
        second.definitions = first.definitions ∧
        Written html body tree first ∧ Written again tree tree second := by
  intro html again file body tree
  have bound : Counter.start.next + (notesOf body).length < Marker.limit := by decide +kernel
  have came : reconcileTree Counter.start.next body = tree := by decide +kernel
  obtain ⟨kept, sameCount, texts⟩ := reconcile_idempotent .start bound
  rw [came] at kept sameCount texts
  have stray : StrayLink body [0, 0, 0] ⟨.note, 2⟩ := by
    refine ⟨linksTo_iff.mpr (by decide +kernel), fun present => ?_⟩
    exact absurd (mem_notesOf.mpr present) (by decide +kernel)
  have paired : ¬ StrayLink tree [0, 0, 0] ⟨.note, 2⟩ := fun stray =>
    stray.2 (mem_notesOf.mp (by decide +kernel))
  exact ⟨bound, came, stray, paired, kept, sameCount,
    texts html again (by decide +kernel) (by decide +kernel)⟩

end Bindery.Footnote
