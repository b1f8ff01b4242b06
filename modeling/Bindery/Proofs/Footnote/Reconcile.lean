import Bindery.Proofs.Footnote.Renumbered

/-!
# Renumbering a document

All ids and links of a document change by the tree as it was read. The notes
get the numbers from the counter on, and the counter moves behind them. A
document without notes and marks comes back as it is.
-/

set_option autoImplicit false

namespace Bindery.Footnote

open Html (Place Element)

/-- The tree has nothing to renumber: no element has a note's id or marks a scope. -/
def Settled (node : Html.Node) : Prop :=
  (∀ place note, ¬ Defines node place note) ∧
    ∀ place element, node.labelAt? place = some element →
      element.attribute? scopeAttribute = none

/-- A link whose scope has no note of the number. -/
def StrayLink (node : Html.Node) (place : Place) (marker : Marker) : Prop :=
  LinksTo node place marker ∧ ¬ HasNote node (scopeOf node place) marker.number

theorem definitions_eq_length (node : Html.Node) :
    definitions node = (notesOf node).length := by
  rw [definitions, notes_withScopes, List.length_map]

theorem isSettled_iff {node : Html.Node} : isSettled node = true ↔ Settled node := by
  have unmarked : node.labels.any isMarked = false ↔
      ∀ place element, node.labelAt? place = some element →
        element.attribute? scopeAttribute = none := by
    rw [← Html.Tree.placed_map_snd, List.any_map, List.any_eq_false]
    constructor
    · intro all place element found
      simpa [isMarked] using all (place, element) (Html.Tree.mem_placed.mpr found)
    · intro all item member
      simp [isMarked, all item.1 item.2 (Html.Tree.mem_placed.mp member)]
  have none : notesOf node = [] ↔ ∀ place note, ¬ Defines node place note := by
    simp only [List.eq_nil_iff_forall_not_mem, mem_notesOf, not_exists]
    exact forall_comm
  rw [isSettled, Bool.and_eq_true, decide_eq_true_eq, definitions_eq_length, List.length_eq_zero_iff,
    Bool.not_eq_true', unmarked, none, Settled]

/-- A tree without marks in which each note has its new number already stays as it is. -/
theorem reconcileTree_eq_self {node : Html.Node} {start : Nat}
    (unmarked : ∀ place element, node.labelAt? place = some element →
      element.attribute? scopeAttribute = none)
    (same : ∀ note ∈ notesOf node, newNumber node start note = note.2) :
    reconcileTree start node = node := by
  have relabelled : ∀ place item, (withScopes node).labelAt? place = some item →
      (numbering start (withScopes node).labels).relabel item = item.2 := by
    intro place item found
    rw [labelAt?_withScopes] at found
    obtain ⟨element, selected, rfl⟩ := Option.map_eq_some_iff.mp found
    refine relabel_eq_self (unmarked place element selected) fun marker renewed given => ?_
    rw [renumber?_withScopes] at given
    split at given
    · next listed =>
        rw [same _ listed] at given
        exact (Option.some.inj given).symm
    · cases given
  calc
    reconcileTree start node = (withScopes node).map (·.2) := Html.Tree.map_congr relabelled
    _ = node := scopes_map_snd 0 0 node

theorem notesOf_of_settled {node : Html.Node} (settled : Settled node) : notesOf node = [] := by
  simp only [List.eq_nil_iff_forall_not_mem, mem_notesOf]
  rintro note ⟨place, defined⟩
  exact settled.1 place note defined

theorem reconcileTree_of_settled {node : Html.Node} (start : Nat) (settled : Settled node) :
    reconcileTree start node = node :=
  reconcileTree_eq_self settled.2 fun note listed => by simp [notesOf_of_settled settled] at listed

theorem danglingLinks_eq_ncard (start : Nat) (node : Html.Node) :
    danglingLinks start node = {place | ∃ marker, StrayLink node place marker}.ncard := by
  have stray : {place | ∃ marker, StrayLink node place marker} =
      {place | ∃ element, node.labelAt? place = some element ∧
        (numbering start (withScopes node).labels).isDangling
          (scopeNumber node (scopeOf node place), element) = true} := by
    ext place
    simp only [Set.mem_ofPred_eq, StrayLink, linksTo_iff, Option.bind_eq_some_iff,
      Numbering.isDangling]
    constructor
    · rintro ⟨marker, ⟨element, found, read⟩, missing⟩
      refine ⟨element, found, ?_⟩
      have unlisted : (scopeOf node place, marker.number) ∉ notesOf node :=
        missing ∘ mem_notesOf.mp
      simp [read, renumber?_withScopes, unlisted]
    · rintro ⟨element, found, dangling⟩
      cases read : Marker.linkOf? element with
      | none => simp [read] at dangling
      | some marker =>
          refine ⟨marker, ⟨element, found, read⟩, fun present => ?_⟩
          simp [read, renumber?_withScopes, mem_notesOf.mpr present] at dangling
  calc
    danglingLinks start node
      = node.placed.countP fun item =>
          (numbering start (withScopes node).labels).isDangling
            (scopeNumber node (scopeOf node item.1), item.2) := by
        rw [danglingLinks, ← Html.Tree.placed_map_snd (withScopes node), List.countP_map,
          placed_withScopes, List.countP_map, List.map_map]
        rfl
    _ = {place | ∃ marker, StrayLink node place marker}.ncard := by
        rw [stray]
        exact (Html.Tree.ncard_places node fun place element =>
          (numbering start (withScopes node).labels).isDangling
            (scopeNumber node (scopeOf node place), element)).symm

/-- The markup of a settled body is the text that was read, and otherwise that of the tree. -/
structure Written (html : String) (body tree : Html.Node) (result : Reconciled) : Prop where
  settled : Settled body → tree = body ∧ result.html = html
  unsettled : ¬ Settled body → result.html = tree.inner

/-- A body and the tree with its notes counted from `start`. -/
structure RenumberedByScope (body : Html.Node) (start : Nat) (tree : Html.Node) : Prop where
  shape : Html.Tree.SameShape (Renumbered body start) body tree
  unmarked : ∀ place element, tree.labelAt? place = some element →
    element.attribute? scopeAttribute = none

theorem reconcileTree_renumbered (start : Nat) (body : Html.Node) :
    RenumberedByScope body start (reconcileTree start body) where
  shape := reconcileTree_sameShape start body
  unmarked := by
    intro place after found
    obtain ⟨before, -, renumbered⟩ := renumbered_of_labelAt? found
    exact renumbered.unmarked

theorem reconcile_of_parsed {html : String} {body : Html.Node} (counter : Counter)
    (parsed : Html.parseBody? html = some body) :
    reconcile html counter =
      .ok (⟨if isSettled body then html else (reconcileTree counter.next body).inner,
        definitions body, danglingLinks counter.next body⟩, counter.advance (definitions body)) := by
  rw [reconcile, parsed]

/-- Renumbering a document with a body succeeds, and this is what it gives. -/
theorem reconcile_eq {html : String} {body : Html.Node} (counter : Counter)
    (parsed : Html.parseBody? html = some body) :
    ∃ result, reconcile html counter = .ok (result, counter.advance (notesOf body).length) ∧
      Written html body (reconcileTree counter.next body) result ∧
      result.definitions = (notesOf body).length ∧
      result.danglingLinks = {place | ∃ marker, StrayLink body place marker}.ncard := by
  let output := if isSettled body then html else (reconcileTree counter.next body).inner
  refine ⟨⟨output, definitions body, danglingLinks counter.next body⟩, ?_, ⟨?_, ?_⟩,
    definitions_eq_length body, danglingLinks_eq_ncard counter.next body⟩
  · rw [reconcile_of_parsed counter parsed, ← definitions_eq_length]
  · intro settled
    exact ⟨reconcileTree_of_settled counter.next settled, if_pos (isSettled_iff.mpr settled)⟩
  · intro unsettled
    exact if_neg (unsettled ∘ isSettled_iff.mp)

/-- Every id and link of a note changes by its scope and the tree as it was read, and nothing
else changes. A body without notes and marks comes back as it was, and so does the counter. -/
theorem reconcile_renumbers_by_scope {html : String} {body : Html.Node} (counter : Counter)
    (parsed : Html.parseBody? html = some body) :
    ∃ result after tree, reconcile html counter = .ok (result, after) ∧
      Written html body tree result ∧ RenumberedByScope body counter.next tree ∧
      result.danglingLinks = {place | ∃ marker, StrayLink body place marker}.ncard ∧
      (Settled body → result.definitions = 0 ∧ after = counter) := by
  obtain ⟨result, reconciled, written, numbered, dangling⟩ := reconcile_eq counter parsed
  refine ⟨result, _, reconcileTree counter.next body, reconciled, written,
    reconcileTree_renumbered counter.next body, dangling, ?_⟩
  intro settled
  rw [notesOf_of_settled settled] at numbered ⊢
  exact ⟨numbered, rfl⟩

/-- The first note of the chapter takes the number that the second one had. -/
theorem reconcile_renumbers_overlapping :
    let html :=
      "<div class=\"chapter\"><a href=\"#fn1\">1</a><p id=\"fn1\">a</p><p id=\"fn2\">b</p></div>"
    let body : Html.Node := .element (.ofName "body" []) [
      .element (.ofName "div" [("class", "chapter")]) [
        .element (.ofName "a" [("href", "#fn1")]) [.text "1"],
        .element (.ofName "p" [("id", "fn1")]) [.text "a"],
        .element (.ofName "p" [("id", "fn2")]) [.text "b"]]]
    Html.parseBody? html = some body ∧
      ∃ result after tree, reconcile html (Counter.start.advance 1) = .ok (result, after) ∧
        Written html body tree result ∧ RenumberedByScope body 2 tree ∧
        result.danglingLinks = {place | ∃ marker, StrayLink body place marker}.ncard ∧
        (Settled body → result.definitions = 0 ∧ after = Counter.start.advance 1) :=
  ⟨by decide +kernel,
    reconcile_renumbers_by_scope (Counter.start.advance 1) (by decide +kernel)⟩

/-- The notes of a body get the numbers from `start` on in the order of their first ids, and the
ids of the notes in the tree are these numbers, each for one note. -/
structure NumberedInOrder (body : Html.Node) (start : Nat) (tree : Html.Node) : Prop where
  listed : ∀ note, note ∈ notesOf body ↔ ∃ place, Defines body place note
  once : (notesOf body).Nodup
  ordered : (notesOf body).Pairwise fun left right =>
    ∃ place, Defines body place left ∧ ∀ other, Defines body other right → place < other
  given : ∀ index note, (notesOf body)[index]? = some note → ∀ place, Defines body place note →
    Carries tree place ⟨.note, start + index⟩
  same : ∀ left right,
    (∃ number, Carries tree left ⟨.note, number⟩ ∧ Carries tree right ⟨.note, number⟩) ↔
      ∃ note, Defines body left note ∧ Defines body right note
  range : ∀ place number, Carries tree place ⟨.note, number⟩ →
    start ≤ number ∧ number < start + (notesOf body).length

/-- An element has the id of a note after the pass exactly if it had one, and it is the new one. -/
theorem carries_note_iff {body : Html.Node} {start : Nat} {place : Place} {number : Nat}
    (positive : 0 < start) (bound : start + (notesOf body).length < Marker.limit) :
    Carries (reconcileTree start body) place ⟨.note, number⟩ ↔
      ∃ note, Defines body place note ∧ newNumber body start note = number := by
  rw [carries_reconcileTree_iff]
  constructor
  · rintro ⟨-, old, carries, rfl⟩
    have defined : Defines body place (scopeOf body place, old) := ⟨carries, rfl⟩
    exact ⟨_, defined, (renewed_of_hasNote ⟨place, defined⟩).symm⟩
  · rintro ⟨⟨scope, old⟩, defined, rfl⟩
    obtain ⟨carries, rfl⟩ := id defined
    have present : HasNote body (scopeOf body place) old := ⟨place, defined⟩
    have bounds := newNumber_bounds start (mem_notesOf.mpr present)
    have valid : Marker.InRange ⟨.note, newNumber body start (scopeOf body place, old)⟩ :=
      ⟨Nat.lt_of_lt_of_le positive bounds.1, Nat.lt_trans bounds.2 bound⟩
    exact ⟨valid, old, carries, renewed_of_hasNote present⟩

theorem reconcileTree_numberedInOrder {body : Html.Node} {start : Nat} (positive : 0 < start)
    (bound : start + (notesOf body).length < Marker.limit) :
    NumberedInOrder body start (reconcileTree start body) where
  listed := fun _ => mem_notesOf
  once := notesOf_nodup body
  ordered := notesOf_ordered body
  given := by
    intro index note found place defined
    refine (carries_note_iff positive bound).mpr ⟨note, defined, ?_⟩
    exact (newNumber_eq_iff (mem_notesOf.mpr ⟨place, defined⟩)).mpr found
  same := by
    intro left right
    simp only [carries_note_iff positive bound]
    constructor
    · rintro ⟨number, ⟨note, defined, given⟩, other, otherDefined, otherGiven⟩
      have listed : note ∈ notesOf body := mem_notesOf.mpr ⟨left, defined⟩
      obtain rfl := newNumber_injective listed (given.trans otherGiven.symm)
      exact ⟨note, defined, otherDefined⟩
    · rintro ⟨note, defined, otherDefined⟩
      exact ⟨_, ⟨note, defined, rfl⟩, note, otherDefined, rfl⟩
  range := by
    intro place number carries
    obtain ⟨note, defined, rfl⟩ := (carries_note_iff positive bound).mp carries
    exact newNumber_bounds start (mem_notesOf.mpr ⟨place, defined⟩)

/-- One pass gives the numbers from the counter on to the notes in the order of their first ids,
and the counter moves behind the last of them. -/
theorem reconcile_numbers_in_order {html : String} {body : Html.Node} (counter : Counter)
    (parsed : Html.parseBody? html = some body)
    (bound : counter.next + (notesOf body).length < Marker.limit) :
    ∃ result after tree, reconcile html counter = .ok (result, after) ∧
      Written html body tree result ∧ NumberedInOrder body counter.next tree ∧
      result.definitions = (notesOf body).length ∧
      after.next = counter.next + (notesOf body).length := by
  obtain ⟨result, reconciled, written, numbered, -⟩ := reconcile_eq counter parsed
  exact ⟨result, _, reconcileTree counter.next body, reconciled, written,
    reconcileTree_numberedInOrder counter.next_pos bound, numbered, rfl⟩

/-- The second id of a note takes no number of its own. -/
theorem reconcile_numbers_repeated :
    let html := "<p id=\"fn2\">a</p><p id=\"fn1\">b</p><p id=\"fn2\">c</p>"
    let body : Html.Node := .element (.ofName "body" []) [
      .element (.ofName "p" [("id", "fn2")]) [.text "a"],
      .element (.ofName "p" [("id", "fn1")]) [.text "b"],
      .element (.ofName "p" [("id", "fn2")]) [.text "c"]]
    Html.parseBody? html = some body ∧ 1 + (notesOf body).length < Marker.limit ∧
      ∃ result after tree, reconcile html .start = .ok (result, after) ∧
        Written html body tree result ∧ NumberedInOrder body 1 tree ∧
        result.definitions = (notesOf body).length ∧ after.next = 1 + (notesOf body).length :=
  ⟨by decide +kernel, by decide,
    reconcile_numbers_in_order .start (by decide +kernel) (by decide)⟩

end Bindery.Footnote
