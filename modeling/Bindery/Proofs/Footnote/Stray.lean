import Bindery.Proofs.Footnote.Reconcile

/-!
# Links without a note

A link whose scope has no note of its number keeps the number, while the notes
of all scopes get new ones. It stays without a note exactly if no note and no
reference gets the number that it names.
-/

set_option autoImplicit false

namespace Bindery.Footnote

open Html (Place Element)

/-- The markup shows the elements below the body. The body itself is only there in a text that
stays as it is. -/
def Shown (body : Html.Node) (place : Place) : Prop := place = [] → Settled body

/-- The link at a place names the id of the element at another one. -/
def PointsAt (node : Html.Node) (link target : Place) : Prop :=
  ∃ source owner id, node.labelAt? link = some source ∧ node.labelAt? target = some owner ∧
    source.attribute? "href" = some ("#" ++ id) ∧ owner.attribute? "id" = some id

/-- The element at a place is a link to the number or has the id of a reference with it, and its
scope has no such note. -/
def Unpaired (node : Html.Node) (place : Place) (number : Nat) : Prop :=
  ((∃ kind, LinksTo node place ⟨kind, number⟩) ∨ Carries node place ⟨.reference, number⟩) ∧
    ¬ HasNote node (scopeOf node place) number

/-- In the renumbered tree no stray link points at an element, and nothing unpaired has the number
of a note of another scope. -/
structure KeepsApart (body tree : Html.Node) : Prop where
  links : ∀ place marker, StrayLink body place marker →
    ∀ target, Shown body target → ¬ PointsAt tree place target
  partners : ∀ place number, Unpaired body place number →
    ∀ target note, Shown body target → Defines body target note → note.1 ≠ scopeOf body place →
      ¬ Carries tree target ⟨.note, number⟩

/-- No number of a stray link or of something unpaired is given to a note or to a reference, nor
does a reference keep such a number. -/
structure Unmixed (body : Html.Node) (start : Nat) : Prop where
  notes : ∀ place number, StrayLink body place ⟨.note, number⟩ →
    ∀ target note, Shown body target → Defines body target note →
      newNumber body start note ≠ number
  references : ∀ place number, StrayLink body place ⟨.reference, number⟩ →
    ∀ target old, Shown body target → Carries body target ⟨.reference, old⟩ →
      renewed body start (scopeOf body target) old ≠ number
  partners : ∀ place number, Unpaired body place number →
    ∀ target note, Shown body target → Defines body target note → note.1 ≠ scopeOf body place →
      newNumber body start note ≠ number

theorem StrayLink.href {body : Html.Node} (start : Nat) {place : Place} {marker : Marker}
    (stray : StrayLink body place marker) :
    ∃ after, (reconcileTree start body).labelAt? place = some after ∧
      after.attribute? "href" = some marker.link := by
  obtain ⟨links, missing⟩ := stray
  obtain ⟨-, before, selected, -, written⟩ := id links
  obtain ⟨after, found, renumbered⟩ := renumbered_of_labelAt?_before start selected
  refine ⟨after, found, (renumbered.hrefKept fun other otherLinks => ?_).trans written⟩
  obtain rfl := otherLinks.unique links
  exact missing

theorem StrayLink.pointsAt_iff {body : Html.Node} {start : Nat} {place target : Place}
    {marker : Marker} (stray : StrayLink body place marker) :
    PointsAt (reconcileTree start body) place target ↔
      Carries (reconcileTree start body) target marker := by
  obtain ⟨after, found, named⟩ := stray.href start
  constructor
  · rintro ⟨source, owner, id, sourceFound, ownerFound, link, written⟩
    obtain rfl := Option.some.inj (sourceFound.symm.trans found)
    have same : "#" ++ id = "#" ++ marker.id := Option.some.inj (link.symm.trans named)
    obtain rfl := (String.append_right_inj "#").mp same
    exact ⟨stray.1.1, owner, ownerFound, written⟩
  · rintro ⟨-, owner, ownerFound, written⟩
    exact ⟨after, owner, marker.id, found, ownerFound, named, written⟩

/-- A note's id in the renumbered tree is the new number of the note that was there. -/
theorem Defines.carries_iff {body : Html.Node} {start number : Nat} {target : Place} {note : Note}
    (defined : Defines body target note) (valid : Marker.InRange ⟨.note, number⟩) :
    Carries (reconcileTree start body) target ⟨.note, number⟩ ↔
      newNumber body start note = number := by
  obtain ⟨scope, old⟩ := note
  obtain ⟨carries, rfl⟩ := id defined
  rw [carries_reconcileTree_iff, ← renewed_of_hasNote ⟨target, defined⟩]
  constructor
  · rintro ⟨-, other, otherCarries, same⟩
    obtain ⟨-, rfl⟩ := Marker.mk.inj (otherCarries.unique carries)
    exact same
  · intro same
    exact ⟨valid, old, carries, same⟩

theorem Unpaired.inRange {node : Html.Node} {place : Place} {number : Nat}
    (unpaired : Unpaired node place number) : Marker.InRange ⟨.note, number⟩ := by
  rcases unpaired.1 with ⟨kind, links⟩ | carries
  · exact links.1
  · exact carries.1

/-- Whether stray links stay stray can be told from the tree as it was. -/
theorem keepsApart_iff {body : Html.Node} {start : Nat} :
    KeepsApart body (reconcileTree start body) ↔ Unmixed body start := by
  constructor
  · rintro ⟨links, partners⟩
    refine ⟨?_, ?_, ?_⟩
    · intro place number stray target note shown defined same
      refine links place _ stray target shown (stray.pointsAt_iff.mpr ?_)
      exact (defined.carries_iff stray.1.1).mpr same
    · intro place number stray target old shown carries same
      refine links place _ stray target shown (stray.pointsAt_iff.mpr ?_)
      exact carries_reconcileTree_iff.mpr ⟨stray.1.1, old, carries, same⟩
    · intro place number unpaired target note shown defined other same
      refine partners place number unpaired target note shown defined other ?_
      exact (defined.carries_iff unpaired.inRange).mpr same
  · rintro ⟨notes, references, partners⟩
    refine ⟨?_, ?_⟩
    · rintro place ⟨kind, number⟩ stray target shown points
      obtain ⟨-, old, carries, same⟩ := carries_reconcileTree_iff.mp (stray.pointsAt_iff.mp points)
      cases kind with
      | note =>
          have defined : Defines body target (scopeOf body target, old) := ⟨carries, rfl⟩
          rw [renewed_of_hasNote ⟨target, defined⟩] at same
          exact notes place number stray target _ shown defined same
      | reference => exact references place number stray target old shown carries same
    · intro place number unpaired target note shown defined other carries
      exact partners place number unpaired target note shown defined other
        ((defined.carries_iff unpaired.inRange).mp carries)

/-- A counted link points at nothing, and no link or reference without a note gets one of another
scope, exactly if the new numbers of the notes are none of theirs. -/
theorem reconcile_keepsApart_iff {html : String} {body : Html.Node} (counter : Counter)
    (parsed : Html.parseBody? html = some body) :
    ∃ result after tree, reconcile html counter = .ok (result, after) ∧
      Written html body tree result ∧ RenumberedByScope body counter.next tree ∧
      result.danglingLinks = {place | ∃ marker, StrayLink body place marker}.ncard ∧
      (KeepsApart body tree ↔ Unmixed body counter.next) := by
  obtain ⟨result, reconciled, written, -, dangling⟩ := reconcile_eq counter parsed
  exact ⟨result, _, reconcileTree counter.next body, reconciled, written,
    reconcileTree_renumbered counter.next body, dangling, keepsApart_iff⟩

/-- A link to a number that no note gets stays without a note. -/
theorem reconcile_far_link_keepsApart_iff :
    let html := "<p id=\"fn3\">a</p><div class=\"chapter\"><a href=\"#fn7\">7</a></div>"
    let body : Html.Node := .element (.ofName "body" []) [
      .element (.ofName "p" [("id", "fn3")]) [.text "a"],
      .element (.ofName "div" [("class", "chapter")]) [
        .element (.ofName "a" [("href", "#fn7")]) [.text "7"]]]
    Html.parseBody? html = some body ∧
      ∃ result after tree, reconcile html .start = .ok (result, after) ∧
        Written html body tree result ∧ RenumberedByScope body 1 tree ∧
        result.danglingLinks = {place | ∃ marker, StrayLink body place marker}.ncard ∧
        (KeepsApart body tree ↔ Unmixed body 1) :=
  ⟨by decide +kernel, reconcile_keepsApart_iff .start (by decide +kernel)⟩

/-- Two chapters, the second with a link to a note that only the first one has. -/
def crossedText : String :=
  "<div class=\"chapter\"><p id=\"fn1\">a</p></div><div class=\"chapter\"><a href=\"#fn1\">1</a></div>"

def crossedBody : Html.Node :=
  .element (.ofName "body" []) [
    .element (.ofName "div" [("class", "chapter")]) [
      .element (.ofName "p" [("id", "fn1")]) [.text "a"]],
    .element (.ofName "div" [("class", "chapter")]) [
      .element (.ofName "a" [("href", "#fn1")]) [.text "1"]]]

/-- The link of the second chapter is counted, and yet it points at the note of the first. -/
theorem stray_link_captured :
    Html.parseBody? crossedText = some crossedBody ∧
      reconcile crossedText .start = .ok (⟨crossedText, 1, 1⟩, Counter.start.advance 1) ∧
      (reconcileTree 1 crossedBody).inner = crossedText ∧
      StrayLink crossedBody [1, 0] ⟨.note, 1⟩ ∧
      PointsAt (reconcileTree 1 crossedBody) [1, 0] [0, 0] ∧
      ¬ KeepsApart crossedBody (reconcileTree 1 crossedBody) := by
  have parsed : Html.parseBody? crossedText = some crossedBody := by decide +kernel
  have missing : (scopeOf crossedBody [1, 0], 1) ∉ notesOf crossedBody := by decide
  have stray : StrayLink crossedBody [1, 0] ⟨.note, 1⟩ :=
    ⟨⟨by decide, _, rfl, rfl, rfl⟩, missing ∘ mem_notesOf.mpr⟩
  have captured : PointsAt (reconcileTree 1 crossedBody) [1, 0] [0, 0] :=
    ⟨_, _, "fn1", rfl, rfl, rfl, rfl⟩
  refine ⟨parsed, ?_, by decide, stray, captured, ?_⟩
  · rw [reconcile, parsed]
    decide
  · intro apart
    exact apart.links [1, 0] _ stray [0, 0] (fun root => absurd root (List.cons_ne_nil 0 [0]))
      captured

end Bindery.Footnote
