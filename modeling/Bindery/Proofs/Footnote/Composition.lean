import Bindery.Proofs.Footnote.Reconcile
import Bindery.Proofs.Html.Reading

/-!
# Documents one after the other

In a part that keeps its notes and links in scopes of its own, no number means a
note of another part. So parts can be renumbered one by one, each from where the
counter was left, and it comes to the same as one pass over all of them.
-/

set_option autoImplicit false

namespace Bindery.Footnote

open Html (Element)

/-- Every element with a marker is in a scope that opens in its tree. -/
def Contained (forest : List Html.Node) : Prop :=
  ∀ node ∈ forest, ∀ item ∈ node.placed, concerns item.2 = true → scopeOf node item.1 ≠ none

instance (forest : List Html.Node) : Decidable (Contained forest) :=
  inferInstanceAs (Decidable (∀ node ∈ forest, ∀ item ∈ node.placed, _))

/-- The same thing in a scope of another number. -/
def rescope {α : Type} (rename : Nat → Nat) (item : Nat × α) : Nat × α := (rename item.1, item.2)

/-- The numbers after the given one make room for so many new ones. -/
def makeRoom (after count number : Nat) : Nat := if number ≤ after then number else number + count

theorem makeRoom_injective (after count : Nat) : Function.Injective (makeRoom after count) := by
  intro left right same
  unfold makeRoom at same
  split at same <;> split at same <;> omega

theorem makeRoom_of_le {after number : Nat} (count : Nat) (small : number ≤ after) :
    makeRoom after count number = number := if_pos small

theorem makeRoom_of_lt {after number : Nat} (count : Nat) (large : after < number) :
    makeRoom after count number = number + count := if_neg (Nat.not_le.mpr large)

theorem scopesAll_append (scope last : Nat) (left right : List Html.Node) :
    scopesAll scope last (left ++ right) =
      ((scopesAll scope last left).1 ++ (scopesAll scope (scopesAll scope last left).2 right).1,
        (scopesAll scope (scopesAll scope last left).2 right).2) := by
  induction left generalizing last with
  | nil => rfl
  | cons node rest ih => simp only [List.cons_append, scopesAll, ih]

mutual

/-- Scopes that are numbered later have numbers that are larger by the same amount. -/
theorem scopes_makeRoom {after : Nat} (count scope : Nat) {last : Nat} (reached : after ≤ last) :
    (node : Html.Node) → scopes (makeRoom after count scope) (last + count) node =
      ((scopes scope last node).1.map (rescope (makeRoom after count)),
        (scopes scope last node).2 + count)
  | .element element children => by
      have next : makeRoom after count (last + 1) = last + count + 1 := by
        rw [makeRoom_of_lt count (by omega)]
        omega
      unfold scopes
      split
      · have below := scopesAll_makeRoom count (last + 1) (show after ≤ last + 1 by omega) children
        rw [next, Nat.add_right_comm last 1 count] at below
        simp only [below, Html.Tree.map, Html.Tree.mapAll_eq_map, rescope, next]
      · simp only [scopesAll_makeRoom count scope reached children, Html.Tree.map,
          Html.Tree.mapAll_eq_map, rescope]
  | .text content => rfl
  | .comment content => rfl

theorem scopesAll_makeRoom {after : Nat} (count scope : Nat) {last : Nat} (reached : after ≤ last) :
    (forest : List Html.Node) → scopesAll (makeRoom after count scope) (last + count) forest =
      ((scopesAll scope last forest).1.map (Html.Tree.map (rescope (makeRoom after count))),
        (scopesAll scope last forest).2 + count)
  | [] => rfl
  | node :: rest => by
      have further := Nat.le_trans reached (scopes_numbered scope last node).last_le
      simp only [scopesAll, scopes_makeRoom count scope reached node,
        scopesAll_makeRoom count scope further rest, List.map_cons]

end

section Rescope

variable {rename : Nat → Nat} (injective : Function.Injective rename)

include injective

theorem rescope_injective {α : Type} : Function.Injective (rescope (α := α) rename) :=
  injective.prodMap Function.injective_id

theorem notes_rescope (items : List Scoped) :
    notes (items.map (rescope rename)) = (notes items).map (rescope rename) := by
  have read : noteKey? ∘ rescope rename = fun item => (noteKey? item).map (rescope rename) := by
    funext item
    unfold noteKey? rescope
    rw [Function.comp_apply]
    cases Marker.ofElement? item.2 with
    | none => rfl
    | some marker =>
        obtain ⟨kind, number⟩ := marker
        cases kind <;> rfl
  rw [notes, List.filterMap_map, read, ← List.map_filterMap]
  exact Distinct.eraseDups_map _ _ fun _ _ _ _ same => rescope_injective injective same

/-- Which numbers stand for the scopes makes no difference to the new numbers. -/
theorem renumber?_rescope (start : Nat) (items : List Scoped) (scope : Nat) :
    (numbering start (items.map (rescope rename))).renumber? (rename scope) =
      (numbering start items).renumber? scope := by
  funext marker
  have member : rescope rename (scope, marker.number) ∈ (notes items).map (rescope rename) ↔
      (scope, marker.number) ∈ notes items :=
    List.mem_map_of_injective (rescope_injective injective)
  change (((notes (items.map (rescope rename))).zipIdx start).lookup
    (rescope rename (scope, marker.number))).map _ = _
  rw [notes_rescope injective, Distinct.lookup_zipIdx, Distinct.idxOf_map _ _ _
    fun _ _ same => rescope_injective injective same]
  simp only [member, Numbering.renumber?, numbering, Distinct.lookup_zipIdx]

end Rescope

theorem relabel_of_not_concerns {numbers : Numbering} {scope : Nat} {element : Element}
    (plain : concerns element = false) :
    numbers.relabel (scope, element) = element.removeAttribute scopeAttribute := by
  simp only [concerns, Bool.or_eq_false_iff, Option.isSome_eq_false_iff, Option.isNone_iff_eq_none]
    at plain
  simp only [Numbering.relabel, Numbering.renumberId, Numbering.renumberLink,
    ofElement?_removeAttribute, linkOf?_removeAttribute, plain, Option.bind_none]

/-- An element with its markers is relabelled by what becomes of these in its scope. -/
theorem relabel_congr {numbers others : Numbering} {scope other : Nat} {element : Element}
    (same : concerns element = true → numbers.renumber? scope = others.renumber? other) :
    numbers.relabel (scope, element) = others.relabel (other, element) := by
  cases marked : concerns element with
  | true =>
      simp only [Numbering.relabel, Numbering.renumberLink, Numbering.renumberId, same marked]
  | false => rw [relabel_of_not_concerns marked, relabel_of_not_concerns marked]

theorem isDangling_congr {numbers others : Numbering} {scope other : Nat} {element : Element}
    (same : concerns element = true → numbers.renumber? scope = others.renumber? other) :
    numbers.isDangling (scope, element) = others.isDangling (other, element) := by
  unfold Numbering.isDangling
  cases read : Marker.linkOf? element with
  | none => rfl
  | some marker => rw [same (by simp [concerns, read])]

/-- All markers among the items are in scopes with numbers after the first one up to the second. -/
def Between (low high : Nat) (items : List Scoped) : Prop :=
  ∀ item ∈ items, concerns item.2 = true → low < item.1 ∧ item.1 ≤ high

theorem concerns_of_noteKey? {item : Scoped} {key : Key} (read : noteKey? item = some key) :
    concerns item.2 = true ∧ item.1 = key.1 := by
  unfold noteKey? at read
  split at read
  · next number found =>
      cases read
      exact ⟨by simp [concerns, found], rfl⟩
  · cases read

theorem Between.notes {low high : Nat} {items : List Scoped} (between : Between low high items)
    {key : Key} (listed : key ∈ notes items) : low < key.1 ∧ key.1 ≤ high := by
  obtain ⟨item, member, read⟩ := List.mem_filterMap.mp (List.mem_eraseDups.mp listed)
  obtain ⟨marked, same⟩ := concerns_of_noteKey? read
  exact same ▸ between item member marked

theorem Between.makeRoom {low high : Nat} {items : List Scoped} (between : Between low high items)
    (count : Nat) :
    Between (low + count) (high + count) (items.map (rescope (makeRoom low count))) := by
  intro item member marked
  obtain ⟨before, listed, rfl⟩ := List.mem_map.mp member
  obtain ⟨lower, upper⟩ := between before listed marked
  rw [rescope, makeRoom_of_lt count lower]
  exact ⟨Nat.add_lt_add_right lower count, Nat.add_le_add_right upper count⟩

theorem Contained.between {forest : List Html.Node} (contained : Contained forest)
    (scope last : Nat) :
    Between last (scopesAll scope last forest).2
      (Html.Tree.labelsAll (scopesAll scope last forest).1) := by
  induction forest generalizing last with
  | nil => exact fun item member => absurd member List.not_mem_nil
  | cons node rest ih =>
      intro item member marked
      obtain ⟨nodeContained, restContained⟩ := List.forall_mem_cons.mp contained
      have numbered := scopes_numbered scope last node
      have upper := (scopesAll_numbered scope (scopes scope last node).2 rest).last_le
      rcases List.mem_append.mp member with member | member
      · obtain ⟨place, found⟩ := Html.Tree.mem_labels.mp member
        have plain : node.labelAt? place = some item.2 := by
          rw [← scopes_map_snd scope last node, Html.Tree.labelAt?_map, found]
          rfl
        obtain ⟨owner, nearest⟩ := Option.ne_none_iff_exists'.mp
          (nodeContained (place, item.2) (Html.Tree.mem_placed.mpr plain) marked)
        obtain ⟨lower, within, -⟩ := numbered.inside place item owner found nearest
        exact ⟨lower, Nat.le_trans within upper⟩
      · obtain ⟨lower, within⟩ := ih restContained (scopes scope last node).2 item member marked
        exact ⟨Nat.lt_of_le_of_lt numbered.last_le lower, within⟩

section Append

variable {low middle high : Nat} {left right : List Scoped}

theorem notes_append (first : Between low middle left) (second : Between middle high right) :
    notes (left ++ right) = notes left ++ notes right := by
  have apart : (right.filterMap noteKey?).removeAll (left.filterMap noteKey?) =
      right.filterMap noteKey? := by
    refine List.filter_eq_self.mpr fun key member => ?_
    have above := (second.notes (List.mem_eraseDups.mpr member)).1
    have missing : key ∉ left.filterMap noteKey? := by
      intro listed
      have below := (first.notes (List.mem_eraseDups.mpr listed)).2
      omega
    simpa using missing
  rw [notes, List.filterMap_append, List.eraseDups_append, apart]
  rfl

theorem lookup_numbering_of_not_mem {start : Nat} {items : List Scoped} {key : Key}
    (missing : key ∉ notes items) : (numbering start items).lookup key = none := by
  rw [numbering, Distinct.lookup_zipIdx, if_neg missing]

theorem numbering_append (first : Between low middle left) (second : Between middle high right)
    (start : Nat) :
    numbering start (left ++ right) =
      numbering start left ++ numbering (start + (notes left).length) right := by
  rw [numbering, notes_append first second, List.zipIdx_append]
  rfl

theorem renumber?_append_left (first : Between low middle left)
    (second : Between middle high right) (start : Nat) {scope : Nat} (below : scope ≤ middle) :
    (numbering start (left ++ right)).renumber? scope =
      (numbering start left).renumber? scope := by
  funext marker
  have missing : (scope, marker.number) ∉ notes right := fun listed =>
    absurd (second.notes listed).1 (Nat.not_lt.mpr below)
  rw [Numbering.renumber?, numbering_append first second, List.lookup_append,
    lookup_numbering_of_not_mem missing, Option.or_none]
  rfl

theorem renumber?_append_right (first : Between low middle left)
    (second : Between middle high right) (start : Nat) {scope : Nat} (above : middle < scope) :
    (numbering start (left ++ right)).renumber? scope =
      (numbering (start + (notes left).length) right).renumber? scope := by
  funext marker
  have missing : (scope, marker.number) ∉ notes left := fun listed =>
    absurd above (Nat.not_lt.mpr (first.notes listed).2)
  rw [Numbering.renumber?, numbering_append first second, List.lookup_append,
    lookup_numbering_of_not_mem missing, Option.none_or]
  rfl

end Append

section Join

variable {low middle high : Nat} {left right : List (Html.Tree Scoped)}

/-- Trees with scope numbers as they come out when their notes are counted from `start`. -/
def relabelled (start : Nat) (trees : List (Html.Tree Scoped)) : List Html.Node :=
  trees.map (Html.Tree.map (numbering start (Html.Tree.labelsAll trees)).relabel)

/-- How many links of trees with scope numbers point to a note that is not there. -/
def strayLinks (start : Nat) (trees : List (Html.Tree Scoped)) : Nat :=
  (Html.Tree.labelsAll trees).countP (numbering start (Html.Tree.labelsAll trees)).isDangling

theorem relabelled_append (first : Between low middle (Html.Tree.labelsAll left))
    (second : Between middle high (Html.Tree.labelsAll right)) (start : Nat) :
    relabelled start (left ++ right) =
      relabelled start left ++
        relabelled (start + (notes (Html.Tree.labelsAll left)).length) right := by
  rw [relabelled, Html.Tree.labelsAll_append, List.map_append]
  congr 1
  · refine Html.Tree.forest_map_congr fun item member => relabel_congr fun marked => ?_
    exact renumber?_append_left first second start (first item member marked).2
  · refine Html.Tree.forest_map_congr fun item member => relabel_congr fun marked => ?_
    exact renumber?_append_right first second start (second item member marked).1

theorem strayLinks_append (first : Between low middle (Html.Tree.labelsAll left))
    (second : Between middle high (Html.Tree.labelsAll right)) (start : Nat) :
    strayLinks start (left ++ right) =
      strayLinks start left +
        strayLinks (start + (notes (Html.Tree.labelsAll left)).length) right := by
  rw [strayLinks, Html.Tree.labelsAll_append, List.countP_append]
  congr 1
  · refine List.countP_congr fun item member => ?_
    rw [isDangling_congr fun marked =>
      renumber?_append_left first second start (first item member marked).2]
  · refine List.countP_congr fun item member => ?_
    rw [isDangling_congr fun marked =>
      renumber?_append_right first second start (second item member marked).1]

theorem relabelled_rescope {rename : Nat → Nat} (injective : Function.Injective rename)
    (start : Nat) (trees : List (Html.Tree Scoped)) :
    relabelled start (trees.map (Html.Tree.map (rescope rename))) = relabelled start trees := by
  rw [relabelled, relabelled, List.map_map, Html.Tree.labelsAll_map]
  refine List.map_congr_left fun tree _ => ?_
  rw [Function.comp_apply, Html.Tree.map_map]
  exact Html.Tree.map_congr fun place item _ =>
    relabel_congr fun _ => renumber?_rescope injective start _ item.1

theorem strayLinks_rescope {rename : Nat → Nat} (injective : Function.Injective rename)
    (start : Nat) (trees : List (Html.Tree Scoped)) :
    strayLinks start (trees.map (Html.Tree.map (rescope rename))) = strayLinks start trees := by
  rw [strayLinks, strayLinks, Html.Tree.labelsAll_map, List.countP_map]
  refine List.countP_congr fun item _ => ?_
  rw [Function.comp_apply, rescope,
    isDangling_congr fun _ => renumber?_rescope injective start _ item.1]

end Join

/-- The number of the scope that an element without a scope around it is in. -/
def outerScope (root : Element) : Nat := if opensScope root then 1 else 0

/-- What stands below an element, with scope numbers. -/
def scopesBelow (root : Element) (forest : List Html.Node) : List (Html.Tree Scoped) × Nat :=
  scopesAll (outerScope root) (outerScope root) forest

theorem withScopes_element (root : Element) (forest : List Html.Node) :
    withScopes (.element root forest) =
      .element (outerScope root, root) (scopesBelow root forest).1 := by
  unfold withScopes scopes scopesBelow outerScope
  split <;> simp only [*]

section Element

variable {root : Element} (plain : concerns root = false)

include plain

theorem notes_element (forest : List Html.Node) :
    notes (withScopes (.element root forest)).labels =
      notes (Html.Tree.labelsAll (scopesBelow root forest).1) := by
  have unread : noteKey? (outerScope root, root) = none := by
    rw [Option.eq_none_iff_forall_ne_some]
    intro key read
    exact absurd (concerns_of_noteKey? read).1 (by simp [plain])
  rw [withScopes_element, Html.Tree.labels, notes, List.filterMap_cons_none unread]
  rfl

theorem numbering_element (start : Nat) (forest : List Html.Node) :
    numbering start (withScopes (.element root forest)).labels =
      numbering start (Html.Tree.labelsAll (scopesBelow root forest).1) := by
  rw [numbering, notes_element plain]
  rfl

theorem definitions_element (forest : List Html.Node) :
    definitions (.element root forest) =
      (notes (Html.Tree.labelsAll (scopesBelow root forest).1)).length := by
  rw [definitions, notes_element plain]

theorem reconcileTree_element (start : Nat) (forest : List Html.Node) :
    reconcileTree start (.element root forest) =
      .element (root.removeAttribute scopeAttribute)
        (relabelled start (scopesBelow root forest).1) := by
  unfold reconcileTree
  dsimp only
  rw [numbering_element plain, withScopes_element, Html.Tree.map, Html.Tree.mapAll_eq_map,
    relabel_of_not_concerns plain]
  rfl

theorem danglingLinks_element (start : Nat) (forest : List Html.Node) :
    danglingLinks start (.element root forest) = strayLinks start (scopesBelow root forest).1 := by
  have unlinked : (numbering start (Html.Tree.labelsAll (scopesBelow root forest).1)).isDangling
      (outerScope root, root) = false := by
    have noLink : Marker.linkOf? root = none := by
      simpa using (Bool.or_eq_false_iff.mp plain).2
    simp only [Numbering.isDangling, noLink]
  unfold danglingLinks
  dsimp only
  rw [numbering_element plain, withScopes_element, Html.Tree.labels, List.countP_cons, unlinked]
  rfl

end Element

/-- A forest behind another one is numbered as if it stood alone, only later. -/
theorem scopesBelow_append (root : Element) (left right : List Html.Node) :
    ∃ count, (scopesBelow root left).2 = outerScope root + count ∧
      scopesBelow root (left ++ right) =
        ((scopesBelow root left).1 ++
            (scopesBelow root right).1.map
              (Html.Tree.map (rescope (makeRoom (outerScope root) count))),
          (scopesBelow root right).2 + count) := by
  obtain ⟨count, latest⟩ := Nat.exists_eq_add_of_le
    (scopesAll_numbered (outerScope root) (outerScope root) left).last_le
  have shifted := scopesAll_makeRoom count (outerScope root) (Nat.le_refl (outerScope root)) right
  rw [makeRoom_of_le count (Nat.le_refl _)] at shifted
  refine ⟨count, latest, ?_⟩
  unfold scopesBelow
  rw [scopesAll_append, latest, shifted]

/-- What a pass over two forests gives is what one pass over each of them gives, if the second one
counts from where the first one ends. -/
structure Joined (root : Element) (start : Nat) (left right : List Html.Node) : Prop where
  tree : reconcileTree start (.element root (left ++ right)) =
    .element (root.removeAttribute scopeAttribute)
      ((reconcileTree start (.element root left)).children ++
        (reconcileTree (start + definitions (.element root left))
          (.element root right)).children)
  definitions : definitions (.element root (left ++ right)) =
    definitions (.element root left) + definitions (.element root right)
  danglingLinks : danglingLinks start (.element root (left ++ right)) =
    danglingLinks start (.element root left) +
      danglingLinks (start + Footnote.definitions (.element root left)) (.element root right)

theorem joined_of_contained {root : Element} {left right : List Html.Node}
    (plain : concerns root = false) (first : Contained left) (second : Contained right)
    (start : Nat) : Joined root start left right := by
  obtain ⟨count, latest, whole⟩ := scopesBelow_append root left right
  have injective := makeRoom_injective (outerScope root) count
  have below : Between (outerScope root) (outerScope root + count)
      (Html.Tree.labelsAll (scopesBelow root left).1) := by
    rw [← latest]
    exact first.between (outerScope root) (outerScope root)
  have above : Between (outerScope root + count) ((scopesBelow root right).2 + count)
      (Html.Tree.labelsAll ((scopesBelow root right).1.map
        (Html.Tree.map (rescope (makeRoom (outerScope root) count))))) := by
    rw [Html.Tree.labelsAll_map]
    exact (second.between (outerScope root) (outerScope root)).makeRoom count
  constructor
  case tree =>
    simp only [reconcileTree_element plain, definitions_element plain, whole, Html.Tree.children]
    rw [relabelled_append below above, relabelled_rescope injective]
  case definitions =>
    simp only [definitions_element plain, whole, Html.Tree.labelsAll_append]
    rw [notes_append below above, Html.Tree.labelsAll_map, notes_rescope injective,
      List.length_append, List.length_map]
  case danglingLinks =>
    simp only [danglingLinks_element plain, definitions_element plain, whole]
    rw [strayLinks_append below above, strayLinks_rescope injective]

/-- The forests renumbered one after the other under the same root, the next one always from where
the counter was left. -/
def reconcileEach (root : Element) (start : Nat) : List (List Html.Node) → List Html.Node
  | [] => []
  | forest :: rest =>
      (reconcileTree start (.element root forest)).children ++
        reconcileEach root (start + definitions (.element root forest)) rest

theorem contained_flatten {forests : List (List Html.Node)}
    (contained : ∀ forest ∈ forests, Contained forest) : Contained forests.flatten := by
  intro node member
  obtain ⟨forest, listed, inside⟩ := List.mem_flatten.mp member
  exact contained forest listed node inside

theorem reconcileTree_flatten {root : Element} {forests : List (List Html.Node)}
    (plain : concerns root = false) (contained : ∀ forest ∈ forests, Contained forest)
    (start : Nat) :
    reconcileTree start (.element root forests.flatten) =
      .element (root.removeAttribute scopeAttribute) (reconcileEach root start forests) := by
  induction forests generalizing start with
  | nil => exact reconcileTree_element plain start []
  | cons forest rest ih =>
      obtain ⟨first, others⟩ := List.forall_mem_cons.mp contained
      rw [List.flatten_cons,
        (joined_of_contained plain first (contained_flatten others) start).tree, ih others]
      rfl

/-- The number that counting begins with decides about no link. -/
theorem danglingLinks_start (start other : Nat) (node : Html.Node) :
    danglingLinks start node = danglingLinks other node := by
  rw [danglingLinks_eq_ncard, danglingLinks_eq_ncard]

theorem counts_flatten {root : Element} {forests : List (List Html.Node)}
    (plain : concerns root = false) (contained : ∀ forest ∈ forests, Contained forest)
    (start : Nat) :
    definitions (.element root forests.flatten) =
        (forests.map fun forest => definitions (.element root forest)).sum ∧
      danglingLinks start (.element root forests.flatten) =
        (forests.map fun forest => danglingLinks start (.element root forest)).sum := by
  induction forests with
  | nil => exact ⟨definitions_element plain [], danglingLinks_element plain start []⟩
  | cons forest rest ih =>
      obtain ⟨first, others⟩ := List.forall_mem_cons.mp contained
      have joined := joined_of_contained plain first (contained_flatten others) start
      obtain ⟨sumDefinitions, sumLinks⟩ := ih others
      constructor
      · rw [List.flatten_cons, joined.definitions, sumDefinitions, List.map_cons, List.sum_cons]
      · rw [List.flatten_cons, joined.danglingLinks, danglingLinks_start (start + _) start,
          sumLinks, List.map_cons, List.sum_cons]

theorem Joined.inner {root : Element} {start : Nat} {left right : List Html.Node}
    (joined : Joined root start left right) :
    (reconcileTree start (.element root (left ++ right))).inner =
      (reconcileTree start (.element root left)).inner ++
        (reconcileTree (start + Footnote.definitions (.element root left))
          (.element root right)).inner := by
  rw [joined.tree, Html.Tree.inner, Html.Tree.children, Html.Tree.writeAll_append]
  rfl

/-- What needs a change in the first part needs it in the whole. -/
theorem Joined.unsettled {root : Element} {start : Nat} {left right : List Html.Node}
    (joined : Joined root start left right) (unsettled : ¬ Settled (.element root left)) :
    ¬ Settled (.element root (left ++ right)) := by
  rw [← isSettled_iff] at unsettled ⊢
  intro settled
  refine unsettled ?_
  simp only [isSettled, joined.definitions, Html.Tree.labels, Html.Tree.labelsAll_append,
    Bool.and_eq_true, decide_eq_true_eq, Bool.not_eq_true', List.any_eq_false, List.mem_cons,
    List.mem_append] at settled ⊢
  obtain ⟨none, unmarked⟩ := settled
  refine ⟨by omega, fun element member => unmarked element ?_⟩
  tauto

theorem Counter.advance_advance (counter : Counter) (first second : Nat) :
    (counter.advance first).advance second = counter.advance (first + second) := by
  simp only [Counter.advance, Nat.add_assoc]

/-- One pass over a text that consists of two does what one pass over each of them does, if the
second one goes on with the counter of the first. -/
theorem reconcile_joined {root : Element} {left right : List Html.Node}
    {first second whole : String} (counter : Counter) (joined : Joined root counter.next left right)
    (parsedFirst : Html.parseBody? first = some (.element root left))
    (parsedSecond : Html.parseBody? second = some (.element root right))
    (parsedWhole : Html.parseBody? whole = some (.element root (left ++ right))) :
    ∃ one two all middle after, reconcile first counter = .ok (one, middle) ∧
      reconcile second middle = .ok (two, after) ∧ reconcile whole counter = .ok (all, after) ∧
      all.definitions = one.definitions + two.definitions ∧
      all.danglingLinks = one.danglingLinks + two.danglingLinks ∧
      (¬ Settled (.element root left) → ¬ Settled (.element root right) →
        all.html = one.html ++ two.html) := by
  have ran := reconcile_of_parsed counter parsedWhole
  rw [joined.definitions, joined.danglingLinks, ← Counter.advance_advance] at ran
  refine ⟨_, _, _, _, _, reconcile_of_parsed counter parsedFirst,
    reconcile_of_parsed _ parsedSecond, ran, rfl, rfl, ?_⟩
  intro leftUnsettled rightUnsettled
  have wholeUnsettled := joined.unsettled leftUnsettled
  rw [← isSettled_iff] at leftUnsettled rightUnsettled wholeUnsettled
  simp only [if_neg leftUnsettled, if_neg rightUnsettled, if_neg wholeUnsettled]
  exact joined.inner

/-- Parts that keep their notes and links in scopes of their own are renumbered one after the other
as in one pass over all of them, with one counter: two trees, any number of them, and two texts. -/
theorem reconcile_compositional {root : Element} (plain : concerns root = false) :
    (∀ start left right, Contained left → Contained right → Joined root start left right) ∧
    (∀ start forests, (∀ forest ∈ forests, Contained forest) →
      reconcileTree start (.element root forests.flatten) =
        .element (root.removeAttribute scopeAttribute) (reconcileEach root start forests) ∧
      definitions (.element root forests.flatten) =
        (forests.map fun forest => definitions (.element root forest)).sum ∧
      danglingLinks start (.element root forests.flatten) =
        (forests.map fun forest => danglingLinks start (.element root forest)).sum) ∧
    ∀ counter left right first second whole, Contained left → Contained right →
      Html.parseBody? first = some (.element root left) →
      Html.parseBody? second = some (.element root right) →
      Html.parseBody? whole = some (.element root (left ++ right)) →
      ∃ one two all middle after, reconcile first counter = .ok (one, middle) ∧
        reconcile second middle = .ok (two, after) ∧ reconcile whole counter = .ok (all, after) ∧
        all.definitions = one.definitions + two.definitions ∧
        all.danglingLinks = one.danglingLinks + two.danglingLinks ∧
        (¬ Settled (.element root left) → ¬ Settled (.element root right) →
          all.html = one.html ++ two.html) := by
  refine ⟨fun start left right first second => joined_of_contained plain first second start,
    fun start forests contained => ?_, ?_⟩
  · exact ⟨reconcileTree_flatten plain contained start, counts_flatten plain contained start⟩
  · intro counter left right first second whole leftContained rightContained
    exact reconcile_joined counter
      (joined_of_contained plain leftContained rightContained counter.next)

/-- Two chapters have a note of the same number, and the second one has a link without a note. -/
theorem reconcile_compositional_chapters :
    let first := "<div class=\"chapter\"><a href=\"#fn1\">1</a><p id=\"fn1\">a</p></div>"
    let second := "<div class=\"chapter\"><a href=\"#fn7\">7</a><p id=\"fn1\">b</p></div>"
    let chapter (target : String) (note : String) : Html.Node :=
      .element (.ofName "div" [("class", "chapter")]) [
        .element (.ofName "a" [("href", "#fn" ++ target)]) [.text target],
        .element (.ofName "p" [("id", "fn1")]) [.text note]]
    let body : Element := .ofName "body" []
    let left := [chapter "1" "a"]
    let right := [chapter "7" "b"]
    concerns body = false ∧ Contained left ∧ Contained right ∧
      ¬ Settled (.element body left) ∧ ¬ Settled (.element body right) ∧
      Joined body 1 left right ∧
      reconcileTree 1 (.element body (left ++ right)) =
        .element body (reconcileEach body 1 [left, right]) ∧
      ∃ one two all middle after, reconcile first .start = .ok (one, middle) ∧
        reconcile second middle = .ok (two, after) ∧
        reconcile (first ++ second) .start = .ok (all, after) ∧
        all.definitions = one.definitions + two.definitions ∧
        all.danglingLinks = one.danglingLinks + two.danglingLinks ∧
        all.html = one.html ++ two.html := by
  intro first second chapter body left right
  have plain : concerns body = false := by decide +kernel
  have leftContained : Contained left := by decide +kernel
  have rightContained : Contained right := by decide +kernel
  have leftUnsettled : ¬ Settled (.element body left) := by
    rw [← isSettled_iff]
    decide +kernel
  have rightUnsettled : ¬ Settled (.element body right) := by
    rw [← isSettled_iff]
    decide +kernel
  obtain ⟨joined, flattened, texts⟩ := reconcile_compositional plain
  obtain ⟨one, two, all, middle, after, ranFirst, ranSecond, ranWhole, sums, links, html⟩ :=
    texts .start left right first second (first ++ second) leftContained rightContained
      (by decide +kernel) (by decide +kernel) (by decide +kernel)
  refine ⟨plain, leftContained, rightContained, leftUnsettled, rightUnsettled,
    joined 1 left right leftContained rightContained, ?_, one, two, all, middle, after, ranFirst,
    ranSecond, ranWhole, sums, links, html leftUnsettled rightUnsettled⟩
  exact (flattened 1 [left, right] (by decide +kernel)).1

end Bindery.Footnote
