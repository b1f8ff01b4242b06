import Bindery.Proofs.Footnote.Reconcile
import Mathlib.Data.List.Nodup
import Mathlib.Data.List.Perm.Basic

/-!
# Parts of a body

A whole document is put together from fragments. Its notes and scopes are theirs.
All that is in no scope of its fragment is in the scope around the fragment, so
there the notes of several fragments may meet.
-/

set_option autoImplicit false

namespace Bindery.Footnote

open Html (Place)

/-- The element opens a scope or has a marker as its id. -/
def isLandmark (element : Html.Element) : Bool :=
  opensScope element || (Marker.ofElement? element).isSome

/-- The landmarks below the root with their places. -/
def landmarks (node : Html.Node) : List (Place × Html.Element) :=
  node.placed.filter fun item => item.1 ≠ [] && isLandmark item.2

/-- The root does not have the id of a note. -/
def Unnoted (node : Html.Node) : Prop := ∀ number, ¬ Carries node [] ⟨.note, number⟩

/-- The body of a fragment, where its elements stand in the whole, and the scope around them. -/
structure Part where
  body : Html.Node
  position : Place → Place
  around : Option Place
  root : position [] = []
  unnoted : Unnoted body

namespace Part

/-- The landmarks of the fragment with their places in the whole. -/
def moved (part : Part) : List (Place × Html.Element) :=
  (landmarks part.body).map fun item => (part.position item.1, item.2)

def places (part : Part) : List Place := part.moved.map (·.1)

/-- A scope of the fragment in the whole. -/
def scope (part : Part) (own : Option Place) : Option Place :=
  (own.map part.position).or part.around

def noteIn (part : Part) (note : Note) : Note := (part.scope note.1, note.2)

def notes (part : Part) : List Note := (notesOf part.body).map part.noteIn

/-- All notes of the fragment are in scopes below its root. -/
def KeepsNotes (part : Part) : Prop :=
  ∀ note ∈ notesOf part.body, note.1 ≠ none ∧ note.1 ≠ some []

instance (part : Part) : Decidable part.KeepsNotes :=
  inferInstanceAs (Decidable (∀ note ∈ notesOf part.body, _))

end Part

/-- The landmarks of a body are those of the parts, each at a place of its own and in the scope that
it has in its part. Other elements may differ: one that a fragment leaves open can be opened again
in the next. -/
structure Assembled (body : Html.Node) (parts : List Part) : Prop where
  unnoted : Unnoted body
  moved : (landmarks body).Perm (parts.flatMap Part.moved)
  scopes : ∀ part ∈ parts, ∀ item ∈ landmarks part.body,
    scopeOf body (part.position item.1) = part.scope (scopeOf part.body item.1)
  outside : ∀ part ∈ parts, ∀ item ∈ part.body.placed, opensScope item.2 = true →
    part.around ≠ some (part.position item.1)

/-- No two elements of different parts have the id of one note. -/
def Isolated (parts : List Part) (tree : Html.Node) : Prop :=
  parts.Pairwise fun left right => ∀ place ∈ left.places, ∀ other ∈ right.places, ∀ number,
    Carries tree place ⟨.note, number⟩ → ¬ Carries tree other ⟨.note, number⟩

/-- No two parts have a note in common. -/
def NotesApart (parts : List Part) : Prop :=
  parts.Pairwise fun left right => ∀ note ∈ left.notes, note ∉ right.notes

instance (parts : List Part) : Decidable (NotesApart parts) :=
  inferInstanceAs (Decidable (parts.Pairwise _))

theorem mem_landmarks {node : Html.Node} {place : Place} {element : Html.Element} :
    (place, element) ∈ landmarks node ↔
      place ≠ [] ∧ isLandmark element = true ∧ node.labelAt? place = some element := by
  simp only [landmarks, List.mem_filter, Html.Tree.mem_placed, Bool.and_eq_true, decide_eq_true_eq]
  tauto

theorem landmarks_nodup (node : Html.Node) : ((landmarks node).map (·.1)).Nodup := by
  have ascending : ((landmarks node).map (·.1)).Pairwise (· < ·) :=
    List.pairwise_map.mpr (node.placed_sorted.filter _)
  exact ascending.imp ne_of_lt

theorem Defines.mem_landmarks {node : Html.Node} {place : Place} {note : Note}
    (defined : Defines node place note) (inner : place ≠ []) :
    ∃ element, (place, element) ∈ landmarks node := by
  obtain ⟨carries, -⟩ := id defined
  obtain ⟨element, label, marker⟩ := Option.bind_eq_some_iff.mp (carries_iff.mp carries)
  exact ⟨element, Footnote.mem_landmarks.mpr ⟨inner, by simp [isLandmark, marker], label⟩⟩

theorem exists_label_of_opensAt {node : Html.Node} {place : Place}
    (opening : opensAt node place = true) :
    ∃ element, node.labelAt? place = some element ∧ opensScope element = true := by
  cases found : node.labelAt? place with
  | none => simp [opensAt, found] at opening
  | some element => exact ⟨element, rfl, by simpa [opensAt, found] using opening⟩

theorem unnoted_of_no_id {element : Html.Element} {children : List Html.Node}
    (unnamed : element.attribute? "id" = none) : Unnoted (.element element children) := by
  rintro number ⟨-, other, label, written⟩
  obtain rfl := Option.some.inj label
  rw [unnamed] at written
  cases written

theorem Unnoted.ne_nil {node : Html.Node} {place : Place} {note : Note} (unnoted : Unnoted node)
    (defined : Defines node place note) : place ≠ [] := by
  rintro rfl
  exact unnoted note.2 defined.1

section

variable {body : Html.Node} {parts : List Part} {part : Part}

theorem Assembled.mem_landmarks (assembled : Assembled body parts) (member : part ∈ parts)
    {inner : Place} {element : Html.Element} (found : (inner, element) ∈ landmarks part.body) :
    (part.position inner, element) ∈ landmarks body :=
  assembled.moved.mem_iff.mpr
    (List.mem_flatMap.mpr ⟨part, member, List.mem_map.mpr ⟨(inner, element), found, rfl⟩⟩)

theorem Part.mem_places {place : Place} :
    place ∈ part.places ↔
      ∃ inner element, (inner, element) ∈ landmarks part.body ∧ part.position inner = place := by
  simp [Part.places, Part.moved]

theorem Assembled.exists_part (assembled : Assembled body parts) {place : Place}
    {element : Html.Element} (found : (place, element) ∈ landmarks body) :
    ∃ part ∈ parts, place ∈ part.places := by
  obtain ⟨part, member, here⟩ := List.mem_flatMap.mp (assembled.moved.mem_iff.mp found)
  exact ⟨part, member, List.mem_map.mpr ⟨(place, element), here, rfl⟩⟩

theorem Assembled.places_nodup (assembled : Assembled body parts) :
    (parts.flatMap Part.places).Nodup := by
  have same : (parts.flatMap Part.moved).map (·.1) = parts.flatMap Part.places :=
    List.map_flatMap
  rw [← same]
  exact (assembled.moved.map (·.1)).nodup_iff.mp (landmarks_nodup body)

theorem Assembled.position_inj (assembled : Assembled body parts) (member : part ∈ parts)
    {left right : Place} (leftOpens : opensAt part.body left = true)
    (rightOpens : opensAt part.body right = true)
    (same : part.position left = part.position right) : left = right := by
  have landmark : ∀ place, opensAt part.body place = true → place ≠ [] →
      ∃ element, (place, element) ∈ landmarks part.body := by
    intro place opening inner
    obtain ⟨element, label, opens⟩ := exists_label_of_opensAt opening
    exact ⟨element, Footnote.mem_landmarks.mpr ⟨inner, by simp [isLandmark, opens], label⟩⟩
  have inner : ∀ place, opensAt part.body place = true → place ≠ [] → part.position place ≠ [] := by
    intro place opening below
    obtain ⟨element, found⟩ := landmark place opening below
    exact (Footnote.mem_landmarks.mp (assembled.mem_landmarks member found)).1
  -- The root is no landmark, but no landmark is moved to its place.
  by_cases atRoot : left = []
  · by_contra different
    rw [atRoot, part.root] at same
    exact inner right rightOpens (fun empty => different (atRoot.trans empty.symm)) same.symm
  · by_cases alsoAtRoot : right = []
    · rw [alsoAtRoot, part.root] at same
      exact absurd same (inner left leftOpens atRoot)
    · obtain ⟨element, leftFound⟩ := landmark left leftOpens atRoot
      obtain ⟨other, rightFound⟩ := landmark right rightOpens alsoAtRoot
      have distinct := (List.nodup_flatMap.mp assembled.places_nodup).1 part member
      rw [Part.places, Part.moved, List.map_map] at distinct
      exact congrArg Prod.fst (List.inj_on_of_nodup_map distinct leftFound rightFound same)

theorem Assembled.around_ne (assembled : Assembled body parts) (member : part ∈ parts)
    {owner : Place} (opening : opensAt part.body owner = true) :
    part.around ≠ some (part.position owner) := by
  obtain ⟨element, label, opens⟩ := exists_label_of_opensAt opening
  exact assembled.outside part member _ (Html.Tree.mem_placed.mpr label) opens

/-- Different notes of a part are different notes of the whole. -/
theorem Assembled.notes_nodup (assembled : Assembled body parts) (member : part ∈ parts) :
    part.notes.Nodup := by
  refine (notesOf_nodup part.body).map_on ?_
  rintro ⟨left, number⟩ leftListed ⟨right, other⟩ rightListed same
  obtain ⟨scopes, rfl⟩ := Prod.mk.inj same
  have leftOpens := opensAt_of_mem_notesOf leftListed
  have rightOpens := opensAt_of_mem_notesOf rightListed
  cases left with
  | none =>
      cases right with
      | none => rfl
      | some owner => exact absurd scopes (assembled.around_ne member (rightOpens owner rfl))
  | some owner =>
      cases right with
      | none => exact absurd scopes.symm (assembled.around_ne member (leftOpens owner rfl))
      | some other =>
          rw [assembled.position_inj member (leftOpens owner rfl) (rightOpens other rfl)
            (Option.some.inj scopes)]

/-- The notes of a part are those that its landmarks define in the whole. -/
theorem Assembled.mem_notes (assembled : Assembled body parts) (member : part ∈ parts)
    {note : Note} : note ∈ part.notes ↔ ∃ place ∈ part.places, Defines body place note := by
  have moved : ∀ {inner : Place} {element : Html.Element} (number : Nat),
      (inner, element) ∈ landmarks part.body →
        (Defines part.body inner (scopeOf part.body inner, number) ↔
          Defines body (part.position inner) (part.scope (scopeOf part.body inner), number)) := by
    intro inner element number found
    -- The label is the same at both places, so only the scope has to be told over again.
    have label := (Footnote.mem_landmarks.mp found).2.2
    have here := (Footnote.mem_landmarks.mp (assembled.mem_landmarks member found)).2.2
    simp only [Defines, Carries, label, here, assembled.scopes part member _ found]
  constructor
  · intro listed
    obtain ⟨⟨scope, number⟩, own, rfl⟩ := List.mem_map.mp listed
    obtain ⟨inner, defined⟩ := mem_notesOf.mp own
    obtain ⟨element, found⟩ := defined.mem_landmarks (part.unnoted.ne_nil defined)
    obtain ⟨-, rfl⟩ := id defined
    exact ⟨part.position inner, Part.mem_places.mpr ⟨inner, element, found, rfl⟩,
      (moved number found).mp defined⟩
  · rintro ⟨place, inside, defined⟩
    obtain ⟨inner, element, found, rfl⟩ := Part.mem_places.mp inside
    obtain ⟨scope, number⟩ := note
    obtain ⟨-, rfl⟩ := id defined
    rw [assembled.scopes part member _ found] at defined ⊢
    have own := mem_notesOf.mpr ⟨inner, (moved number found).mpr defined⟩
    exact List.mem_map.mpr ⟨_, own, rfl⟩

/-- The notes of the whole are those of the parts, each once. -/
theorem Assembled.notesOf_perm (assembled : Assembled body parts) :
    (notesOf body).Perm (parts.flatMap Part.notes).dedup := by
  refine (List.perm_ext_iff_of_nodup (notesOf_nodup body) (List.nodup_dedup _)).mpr fun note => ?_
  rw [List.mem_dedup, List.mem_flatMap, mem_notesOf]
  constructor
  · rintro ⟨place, defined⟩
    obtain ⟨element, found⟩ := defined.mem_landmarks (assembled.unnoted.ne_nil defined)
    obtain ⟨part, member, inside⟩ := assembled.exists_part found
    exact ⟨part, member, (assembled.mem_notes member).mpr ⟨place, inside, defined⟩⟩
  · rintro ⟨part, member, listed⟩
    obtain ⟨place, -, defined⟩ := (assembled.mem_notes member).mp listed
    exact ⟨place, defined⟩

/-- The notes of the whole are as many as those of the parts together exactly if no two parts have
one in common. -/
theorem Assembled.length_notesOf_iff (assembled : Assembled body parts) :
    (notesOf body).length = (parts.map fun part => (notesOf part.body).length).sum ↔
      NotesApart parts := by
  have total : (parts.map fun part => (notesOf part.body).length).sum =
      (parts.flatMap Part.notes).length := by
    simp only [List.length_flatMap, Part.notes, List.length_map]
  rw [assembled.notesOf_perm.length_eq, total, (List.dedup_sublist _).length_eq,
    List.dedup_eq_self, List.nodup_flatMap,
    and_iff_right fun part member => assembled.notes_nodup member]
  rfl

/-- No two parts share an id exactly if they have no note in common. -/
theorem Assembled.isolated_iff (assembled : Assembled body parts) {start : Nat}
    (positive : 0 < start) (bound : start + (notesOf body).length < Marker.limit) :
    Isolated parts (reconcileTree start body) ↔ NotesApart parts := by
  have same := (reconcileTree_numberedInOrder positive bound).same
  refine List.Pairwise.iff_of_mem fun {left right} leftMember rightMember => ?_
  constructor
  · intro isolated note inLeft inRight
    obtain ⟨place, here, defined⟩ := (assembled.mem_notes leftMember).mp inLeft
    obtain ⟨other, there, again⟩ := (assembled.mem_notes rightMember).mp inRight
    obtain ⟨number, carries, carries'⟩ := (same place other).mpr ⟨note, defined, again⟩
    exact isolated place here other there number carries carries'
  · intro apart place here other there number carries carries'
    obtain ⟨note, defined, again⟩ := (same place other).mp ⟨number, carries, carries'⟩
    exact apart note ((assembled.mem_notes leftMember).mpr ⟨place, here, defined⟩)
      ((assembled.mem_notes rightMember).mpr ⟨other, there, again⟩)

/-- Parts that keep their notes have none in common. -/
theorem Assembled.notesApart_of_keepsNotes (assembled : Assembled body parts)
    (kept : ∀ part ∈ parts, part.KeepsNotes) : NotesApart parts := by
  have disjoint := (List.nodup_flatMap.mp assembled.places_nodup).2
  have owned : ∀ part ∈ parts, ∀ note ∈ part.notes, ∃ owner ∈ part.places, note.1 = some owner := by
    intro part member note listed
    obtain ⟨⟨scope, number⟩, own, rfl⟩ := List.mem_map.mp listed
    obtain ⟨some, inner⟩ := kept part member _ own
    obtain ⟨owner, rfl⟩ := Option.ne_none_iff_exists'.mp some
    obtain ⟨element, label, opens⟩ := exists_label_of_opensAt (opensAt_of_mem_notesOf own owner rfl)
    have found : (owner, element) ∈ landmarks part.body :=
      Footnote.mem_landmarks.mpr ⟨ne_of_apply_ne _ inner, by simp [isLandmark, opens], label⟩
    exact ⟨part.position owner, Part.mem_places.mpr ⟨owner, element, found, rfl⟩, rfl⟩
  refine disjoint.imp_of_mem fun leftMember rightMember apart note inLeft inRight => ?_
  obtain ⟨owner, here, same⟩ := owned _ leftMember note inLeft
  obtain ⟨other, there, again⟩ := owned _ rightMember note inRight
  obtain rfl := Option.some.inj (same.symm.trans again)
  exact apart here there

end

end Bindery.Footnote
