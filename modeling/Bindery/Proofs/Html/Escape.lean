import Bindery.Html.Construction.Document
import Bindery.Html.Writer
import Bindery.Proofs.Text.Lines
import Mathlib.Data.List.Basic

/-!
# Escaped characters

An escaped character is written as a reference. No other reference begins like it,
so it is read back as it was, whatever stands behind it.
-/

set_option autoImplicit false

namespace Bindery.Html

/-! ## References -/

/-- The references that escapes are written as, and what they stand for. -/
def escapes : List (List Char × List Char) :=
  [(['a', 'm', 'p', ';'], ['&']), (['n', 'b', 's', 'p', ';'], ['\u00a0']), (['l', 't', ';'], ['<']),
    (['g', 't', ';'], ['>']), (['q', 'u', 'o', 't', ';'], ['"'])]

theorem entities_of_escape : ∀ escape ∈ escapes,
    (entitiesAt escape.1).filter (fun entity => escape.1.isPrefixOf entity.1) = [escape] := by
  decide +kernel

/-- What a name found in a text is compared by, and what stands behind it. -/
abbrev Found := Nat × List Char × Char × List Char

/-- Looks at one more name, and keeps the longer one. -/
def longer (text : List Char) (best : Option Found) (entity : List Char × List Char) :
    Option Found :=
  match Text.dropStart? entity.1 text with
  | none => best
  | some rest =>
      let found := (entity.1.length, entity.2, entity.1.getLastD ' ', rest)
      match best with
      | none => some found
      | some (length, _) => if length < entity.1.length then some found else best

theorem longestName_eq (text : List Char) :
    longestName text = (entitiesAt text).foldl (longer text) none := rfl

section Longest

variable {name value rest : List Char} {group : List (List Char × List Char)}

/-- A name that stands at the start of the text as well is shorter. -/
theorem length_lt_of_other
    (only : ∀ entity ∈ group, name <+: entity.1 → entity = (name, value))
    {entity : List Char × List Char} (member : entity ∈ group) (other : entity ≠ (name, value))
    (stands : entity.1 <+: name ++ rest) : entity.1.length < name.length := by
  by_contra long
  refine other (only entity member ?_)
  exact List.prefix_of_prefix_length_le (List.prefix_append name rest) stands
    (Nat.le_of_not_lt long)

theorem foldl_longer_of_found
    (only : ∀ entity ∈ group, name <+: entity.1 → entity = (name, value)) :
    group.foldl (longer (name ++ rest)) (some (name.length, value, name.getLastD ' ', rest)) =
      some (name.length, value, name.getLastD ' ', rest) := by
  induction group with
  | nil => rfl
  | cons entity others ih =>
      have kept : longer (name ++ rest) (some (name.length, value, name.getLastD ' ', rest))
          entity = some (name.length, value, name.getLastD ' ', rest) := by
        unfold longer
        split
        · rfl
        · next after stands =>
            refine if_neg (Nat.not_lt.mpr ?_)
            by_cases same : entity = (name, value)
            · rw [same]
            · have prefixed : entity.1 <+: name ++ rest :=
                ⟨after, (Text.dropStart?_eq_some_iff.mp stands).symm⟩
              exact Nat.le_of_lt (length_lt_of_other only List.mem_cons_self same prefixed)
      rw [List.foldl_cons, kept, ih fun other member => only other (List.mem_cons_of_mem _ member)]

theorem foldl_longer (listed : (name, value) ∈ group)
    (only : ∀ entity ∈ group, name <+: entity.1 → entity = (name, value))
    {best : Option Found} (short : ∀ found ∈ best, found.1 < name.length) :
    group.foldl (longer (name ++ rest)) best =
      some (name.length, value, name.getLastD ' ', rest) := by
  induction group generalizing best with
  | nil => cases listed
  | cons entity others ih =>
      have onlyRest : ∀ other ∈ others, name <+: other.1 → other = (name, value) :=
        fun other member => only other (List.mem_cons_of_mem _ member)
      rw [List.foldl_cons]
      by_cases same : entity = (name, value)
      · have stands : Text.dropStart? name (name ++ rest) = some rest :=
          Text.dropStart?_eq_some_iff.mpr rfl
        have found : longer (name ++ rest) best entity =
            some (name.length, value, name.getLastD ' ', rest) := by
          rw [same, longer, stands]
          cases best with
          | none => rfl
          | some other => exact if_pos (short other rfl)
        rw [found, foldl_longer_of_found onlyRest]
      · refine ih ((List.mem_cons.mp listed).resolve_left (Ne.symm same)) onlyRest ?_
        unfold longer
        split
        · exact short
        · next after stands =>
            have prefixed : entity.1 <+: name ++ rest :=
              ⟨after, (Text.dropStart?_eq_some_iff.mp stands).symm⟩
            have smaller := length_lt_of_other only List.mem_cons_self same prefixed
            intro found taken
            dsimp only at taken
            split at taken
            · cases taken
              exact smaller
            · split at taken
              · cases taken
                exact smaller
              · exact short found taken

end Longest

theorem readReference_escape {escape : List Char × List Char} (member : escape ∈ escapes)
    (inValue : Bool) (rest : List Char) :
    readReference inValue (escape.1 ++ rest) = some (escape.2, rest) := by
  have named : ∀ escape ∈ escapes, 2 ≤ escape.1.length ∧ escape.1.head?.any Char.isAlpha = true ∧
      escape.1.getLastD ' ' = ';' := by
    decide
  have entities := entities_of_escape escape member
  obtain ⟨long, letter, ends⟩ := named escape member
  obtain ⟨name, value⟩ := escape
  obtain ⟨first, second, more, rfl⟩ : ∃ first second more, name = first :: second :: more := by
    match name, long with
    | first :: second :: more, _ => exact ⟨first, second, more, rfl⟩
  have group : entitiesAt (first :: second :: more ++ rest) =
      entitiesAt (first :: second :: more) := rfl
  have listed : (first :: second :: more, value) ∈ entitiesAt (first :: second :: more) :=
    (List.mem_filter.mp (entities ▸ List.mem_cons_self)).1
  have only : ∀ entity ∈ entitiesAt (first :: second :: more),
      first :: second :: more <+: entity.1 → entity = (first :: second :: more, value) := by
    intro entity among begins
    have kept : entity ∈ [(first :: second :: more, value)] := by
      rw [← entities]
      exact List.mem_filter.mpr ⟨among, List.isPrefixOf_iff_prefix.mpr begins⟩
    exact List.mem_singleton.mp kept
  have longest : longestName (first :: second :: more ++ rest) =
      some ((first :: second :: more).length, value, ';', rest) := by
    rw [longestName_eq, group, foldl_longer listed only (by simp), ends]
  have plain : first.isAlpha = true := letter
  have sign : first ≠ '#' := by
    rintro rfl
    exact absurd plain (by decide)
  rw [List.cons_append] at longest ⊢
  -- No name begins with the sign of a number, so only the last case is left.
  unfold readReference
  split
  · next same => exact absurd (List.cons.inj same).1 sign
  · next same => exact absurd (List.cons.inj same).1 sign
  · next same => exact absurd (List.cons.inj same).1 sign
  · next same => cases same
  · next c tail _ _ same =>
      obtain ⟨rfl, rfl⟩ := List.cons.inj same
      rw [if_pos plain, longest]
      simp

theorem readReference_lineFeed (inValue : Bool) (rest : List Char) :
    readReference inValue ("#10;".toList ++ rest) = some (['\n'], rest) := by
  have numeral : readNumeral 10 digit? ('1' :: '0' :: ';' :: rest) = some (['\n'], rest) := by
    have digits : ('1' :: '0' :: ';' :: rest).takeWhile (fun c => (digit? c).isSome) =
        ['1', '0'] := rfl
    rw [readNumeral, digits]
    rfl
  exact numeral

/-! ## Line feeds -/

theorem lineFeeds_append_of_not_mem {before : List Char} (after : List Char)
    (plain : '\r' ∉ before) :
    lineFeeds (before ++ after) = before ++ lineFeeds after := by
  induction before with
  | nil => rfl
  | cons c rest ih =>
      rw [List.mem_cons, not_or] at plain
      rw [List.cons_append, lineFeeds, ih plain.2, List.cons_append]
      · intro other same
        exact absurd same.symm plain.1
      · intro same
        exact absurd same.symm plain.1

theorem lineFeeds_carriageReturn {rest : List Char} (alone : rest.head? ≠ some '\n') :
    lineFeeds ('\r' :: rest) = '\n' :: lineFeeds rest := by
  rw [lineFeeds]
  rintro other rfl
  exact alone rfl

/-- A text can be cut before anything but a line feed. -/
theorem lineFeeds_append (before : List Char) {after : List Char}
    (whole : after.head? ≠ some '\n') :
    lineFeeds (before ++ after) = lineFeeds before ++ lineFeeds after := by
  fun_induction lineFeeds before with
  | case1 => rfl
  | case2 rest ih => exact congrArg ('\n' :: ·) ih
  | case3 rest alone ih =>
      rw [List.cons_append, lineFeeds_carriageReturn, ih, List.cons_append]
      cases rest with
      | nil => exact whole
      | cons c rest => exact fun same => alone rest (by rw [Option.some.inj same])
  | case4 c rest _ other ih =>
      rw [List.cons_append, lineFeeds, ih, List.cons_append]
      · exact fun _ same _ => other same
      · exact other

/-! ## Escaping -/

/-- Each character is written as it is, or as the reference that stands for it. -/
def Escapes (write : Char → List Char) : Prop :=
  ∀ c, (write c = [c] ∧ c ≠ '&') ∨ ∃ name, write c = '&' :: name ∧ (name, [c]) ∈ escapes

theorem escapes_text : Escapes escapeTextChar := by
  intro c
  unfold escapeTextChar
  split
  · exact .inr ⟨_, rfl, by decide⟩
  · exact .inr ⟨_, rfl, by decide⟩
  · exact .inr ⟨_, rfl, by decide⟩
  · exact .inr ⟨_, rfl, by decide⟩
  · next ampersand _ _ _ => exact .inl ⟨rfl, ampersand⟩

theorem escapes_value : Escapes escapeValueChar := by
  intro c
  unfold escapeValueChar
  split
  · exact .inr ⟨_, rfl, by decide⟩
  · exact .inr ⟨_, rfl, by decide⟩
  · exact .inr ⟨_, rfl, by decide⟩
  · next ampersand _ _ => exact .inl ⟨rfl, ampersand⟩

/-- A character that no escape is about. -/
def isOrdinary (c : Char) : Bool := escapes.all fun escape => c ∉ escape.1 && [c] ≠ escape.2

theorem isOrdinary_lineFeed : isOrdinary '\n' = true := by decide

theorem isOrdinary_carriageReturn : isOrdinary '\r' = true := by decide

section Escaped

variable {write : Char → List Char} (escaped : Escapes write)

include escaped

theorem write_of_isOrdinary {c : Char} (ordinary : isOrdinary c = true) : write c = [c] := by
  rcases escaped c with ⟨plain, -⟩ | ⟨name, -, member⟩
  · exact plain
  · simpa using List.all_eq_true.mp ordinary _ member

/-- An ordinary character other than the ampersand comes from nothing but itself. -/
theorem eq_of_mem_write {c d : Char} (ordinary : isOrdinary c = true) (other : c ≠ '&')
    (member : c ∈ write d) : d = c := by
  rcases escaped d with ⟨plain, -⟩ | ⟨name, written, listed⟩
  · rw [plain] at member
    exact (List.mem_singleton.mp member).symm
  · rw [written] at member
    have inside := (List.mem_cons.mp member).resolve_left other
    have outside := List.all_eq_true.mp ordinary _ listed
    simp [inside] at outside

theorem write_ne_nil (c : Char) : write c ≠ [] := by
  rcases escaped c with ⟨plain, -⟩ | ⟨name, written, -⟩
  · simp [plain]
  · simp [written]

theorem decodeWithin_escaped (text : List Char) {bound : Nat}
    (enough : (text.flatMap write).length ≤ bound) :
    decodeWithin bound (text.flatMap write) = text := by
  induction text generalizing bound with
  | nil => cases bound <;> rfl
  | cons c rest ih =>
      rw [List.flatMap_cons] at enough ⊢
      rcases escaped c with ⟨plain, sign⟩ | ⟨name, written, member⟩
      · rw [plain, List.singleton_append, List.length_cons] at enough
        obtain ⟨bound, rfl⟩ := Nat.exists_eq_add_of_le' (Nat.le_trans (Nat.le_add_left 1 _) enough)
        rw [plain, List.singleton_append, decodeWithin, ih (Nat.le_of_succ_le_succ enough)]
        exact sign
      · rw [written, List.cons_append, List.length_cons, List.length_append] at enough
        obtain ⟨bound, rfl⟩ := Nat.exists_eq_add_of_le' (Nat.le_trans (Nat.le_add_left 1 _) enough)
        have read := readReference_escape member true (rest.flatMap write)
        dsimp only at read
        rw [written, List.cons_append, decodeWithin, read]
        dsimp only
        rw [ih (by omega), List.singleton_append]

theorem decodeValue_escaped (text : List Char) : decodeValue (text.flatMap write) = text :=
  decodeWithin_escaped escaped text (Nat.le_refl _)

theorem map_withoutNull_escaped (text : List Char) :
    (text.flatMap write).map withoutNull = (text.map withoutNull).flatMap write := by
  have null : isOrdinary '\x00' = true := by decide
  have substitute : isOrdinary replacement = true := by decide
  rw [List.map_flatMap, List.flatMap_map]
  refine List.flatMap_congr fun c _ => ?_
  by_cases zero : c = '\x00'
  · subst zero
    rw [write_of_isOrdinary escaped null]
    exact (write_of_isOrdinary escaped substitute).symm
  · have kept : ∀ d ∈ write c, withoutNull d = d := by
      intro d member
      refine if_neg ?_
      rintro rfl
      exact zero (eq_of_mem_write escaped null (by decide) member)
    rw [withoutNull, if_neg zero, List.map_congr_left kept, List.map_id']

/-- Line endings are not escaped, so they can be folded before or after. -/
theorem lineFeeds_escaped (text : List Char) :
    lineFeeds (text.flatMap write) = (lineFeeds text).flatMap write := by
  have keepsReturn := write_of_isOrdinary escaped isOrdinary_carriageReturn
  have keepsFeed := write_of_isOrdinary escaped isOrdinary_lineFeed
  fun_induction lineFeeds text with
  | case1 => rfl
  | case2 rest ih =>
      rw [List.flatMap_cons, List.flatMap_cons, keepsReturn, keepsFeed, List.flatMap_cons,
        keepsFeed, ← ih]
      rfl
  | case3 rest alone ih =>
      have next : (rest.flatMap write).head? ≠ some '\n' := by
        cases rest with
        | nil => nofun
        | cons c rest =>
            rw [List.flatMap_cons, List.head?_append_of_ne_nil _ (write_ne_nil escaped c)]
            intro first
            have member := List.mem_of_mem_head? first
            exact alone rest
              (by rw [eq_of_mem_write escaped isOrdinary_lineFeed (by decide) member])
      rw [List.flatMap_cons, keepsReturn, List.singleton_append, lineFeeds_carriageReturn next, ih,
        List.flatMap_cons, keepsFeed]
      rfl
  | case4 c rest _ other ih =>
      have plain : '\r' ∉ write c := fun member =>
        other (eq_of_mem_write escaped isOrdinary_carriageReturn (by decide) member)
      rw [List.flatMap_cons, lineFeeds_append_of_not_mem _ plain, ih, List.flatMap_cons]

end Escaped

end Bindery.Html
