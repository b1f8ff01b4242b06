import Bindery.Inset
import Bindery.Proofs.Text.Lines
import Bindery.Proofs.Text.Mark

/-!
# Cutting a text in parts

Markers are found in each part of a text on its own if none reaches across. The
pieces of the whole are those of its parts, and where two parts meet the last
piece of one goes on with the first piece of the other.
-/

set_option autoImplicit false

namespace Bindery

namespace Inset

/-- The pieces of two texts, one behind the other. -/
def glue : List (List Char) → List (List Char) → List (List Char)
  | [], others => others
  | [last], others => Text.beforeFirst last others
  | piece :: next :: pieces, others => piece :: glue (next :: pieces) others

section

variable {marker before after : List Char}

theorem addToFirst_eq (c : Char) (pieces : List (List Char)) :
    addToFirst c pieces = Text.beforeFirst [c] pieces := by
  cases pieces <;> rfl

theorem glue_beforeFirst {pieces : List (List Char)} (nonempty : pieces ≠ []) (text : List Char)
    (others : List (List Char)) :
    glue (Text.beforeFirst text pieces) others = Text.beforeFirst text (glue pieces others) := by
  match pieces with
  | [] => exact absurd rfl nonempty
  | [last] => cases others <;> simp [Text.beforeFirst, glue]
  | piece :: next :: pieces => rfl

theorem cutAfter_ne_nil (marker : List Char) (taken : Nat) (text : List Char) :
    cutAfter marker taken text ≠ [] := by
  fun_induction cutAfter marker taken text with
  | case1 => exact List.cons_ne_nil _ _
  | case2 taken c rest ih => exact ih
  | case3 c rest found ih => exact List.cons_ne_nil _ _
  | case4 c rest absent ih =>
      rw [addToFirst_eq]
      cases cutAfter marker 0 rest <;> exact List.cons_ne_nil _ _

theorem glue_nil {pieces : List (List Char)} (nonempty : pieces ≠ []) :
    glue pieces [[]] = pieces := by
  match pieces with
  | [] => exact absurd rfl nonempty
  | [last] => simp [glue, Text.beforeFirst]
  | piece :: next :: pieces =>
      rw [glue, glue_nil (List.cons_ne_nil next pieces)]

/-- No marker reaches from the text into what follows it. -/
def Parted (marker before after : List Char) : Prop :=
  ∀ here, here <:+ before → here ≠ [] → marker <+: here ++ after → marker <+: here

theorem parted_of_head {c : Char} (absent : c ∉ marker) : Parted marker before (c :: after) :=
  fun _ _ _ starts => Text.prefix_of_prefix_append_cons absent starts

theorem parted_of_last {c : Char} (absent : c ∉ marker) : Parted marker (before ++ [c]) after := by
  intro here suffix nonempty starts
  have last : c ∈ here := by
    obtain ⟨front, whole⟩ := suffix
    have ends := congrArg List.getLast? whole
    rw [List.getLast?_append_of_ne_nil front nonempty, List.getLast?_concat] at ends
    exact List.mem_of_getLast? ends
  exact Text.prefix_of_prefix_append absent last starts

theorem cutAfter_append (parted : Parted marker before after) {taken : Nat}
    (fits : taken ≤ before.length) :
    cutAfter marker taken (before ++ after) =
      glue (cutAfter marker taken before) (cut marker after) := by
  induction before generalizing taken with
  | nil =>
      obtain rfl : taken = 0 := Nat.le_zero.mp fits
      rw [List.nil_append, cutAfter, glue, cut]
      obtain ⟨piece, pieces, whole⟩ := List.exists_cons_of_ne_nil (cutAfter_ne_nil marker 0 after)
      rw [whole]
      rfl
  | cons c rest ih =>
      have next : ∀ {taken}, taken ≤ rest.length → cutAfter marker taken (rest ++ after) =
          glue (cutAfter marker taken rest) (cut marker after) :=
        ih fun here suffix => parted here (suffix.trans (List.suffix_cons c rest))
      cases taken with
      | succ taken => exact next (Nat.le_of_succ_le_succ fits)
      | zero =>
          have same : (Text.dropStart? marker (c :: (rest ++ after))).isSome =
              (Text.dropStart? marker (c :: rest)).isSome := by
            rw [Bool.eq_iff_iff, Text.isSome_dropStart?_iff, Text.isSome_dropStart?_iff]
            exact ⟨parted (c :: rest) List.suffix_rfl (List.cons_ne_nil c rest),
              fun starts => starts.trans (List.prefix_append (c :: rest) after)⟩
          rw [List.cons_append, cutAfter, cutAfter, same]
          split
          · next found =>
              have short : marker.length - 1 ≤ rest.length := by
                have bounded := (Text.isSome_dropStart?_iff.mp found).length_le
                rw [List.length_cons] at bounded
                omega
              rw [next short]
              obtain ⟨piece, pieces, whole⟩ :=
                List.exists_cons_of_ne_nil (cutAfter_ne_nil marker (marker.length - 1) rest)
              rw [whole]
              rfl
          · rw [next (Nat.zero_le _), addToFirst_eq, addToFirst_eq,
              glue_beforeFirst (cutAfter_ne_nil marker 0 rest)]

theorem cut_append (parted : Parted marker before after) :
    cut marker (before ++ after) = glue (cut marker before) (cut marker after) :=
  cutAfter_append parted (Nat.zero_le _)

theorem cut_eq_singleton {text : List Char} (absent : ¬ marker <:+: text) :
    cut marker text = [text] := by
  induction text with
  | nil => rfl
  | cons c rest ih =>
      have here : ¬ (Text.dropStart? marker (c :: rest)).isSome = true :=
        fun found => absent (Text.isSome_dropStart?_iff.mp found).isInfix
      have later : cutAfter marker 0 rest = [rest] :=
        ih fun inside => absent (List.infix_cons inside)
      rw [cut, cutAfter, if_neg here, later]
      rfl

end

/-! ## Insets in the text of a later stage -/

/-- A text that has no part in any marker, whatever stands around it. -/
structure Sealed (marker text : List Char) : Prop where
  absent : ¬ marker <:+: text
  first : ∃ c rest, text = c :: rest ∧ c ∉ marker
  last : ∃ front c, text = front ++ [c] ∧ c ∉ marker

section

variable {marker text : List Char} (closed : Sealed marker text)

include closed

theorem Sealed.parted_before (before after : List Char) : Parted marker before (text ++ after) := by
  obtain ⟨c, rest, rfl, absent⟩ := closed.first
  exact parted_of_head absent

theorem Sealed.parted_after (after : List Char) : Parted marker text after := by
  obtain ⟨front, c, rfl, absent⟩ := closed.last
  exact parted_of_last absent

end

/-- What stands between two such texts has a part in a marker only by itself. -/
theorem Sealed.enclose {marker left inside right : List Char} (opens : Sealed marker left)
    (closes : Sealed marker right) (absent : ¬ marker <:+: inside) :
    Sealed marker (left ++ (inside ++ right)) := by
  have unopened := opens.absent
  have unclosed := closes.absent
  obtain ⟨c, rest, begins, first⟩ := opens.first
  obtain ⟨front, d, ends, last⟩ := closes.last
  obtain ⟨behind, e, leftEnds, leftLast⟩ := opens.last
  obtain ⟨f, ahead, rightBegins, rightFirst⟩ := closes.first
  refine ⟨?_, ⟨c, rest ++ (inside ++ right), by rw [begins]; rfl, first⟩,
    ⟨left ++ (inside ++ front), d, by rw [ends]; simp, last⟩⟩
  rw [leftEnds, List.append_assoc, List.singleton_append, Text.infix_append_cons_iff leftLast,
    rightBegins, Text.infix_append_cons_iff rightFirst]
  rintro (before | within | after)
  · exact unopened (leftEnds ▸ before.trans (List.prefix_append behind [e]).isInfix)
  · exact absent within
  · exact unclosed (rightBegins ▸ List.infix_cons after)

/-- A part of a text, with a text in the place of an inset. -/
def Part.written (write : List Char → List Char) : Part → List Char
  | .plain content => content
  | .inset content => write content

/-- Cuts a part at each marker. What stands in the place of an inset is one piece. -/
def Part.pieces (marker : List Char) (write : List Char → List Char) : Part → List (List Char)
  | .plain content => cut marker content
  | .inset content => [write content]

/-- A later stage finds its markers in the plain parts of a text and nowhere else. -/
theorem cut_ofPieces {marker opening : List Char} {write : List Char → List Char}
    (closed : ∀ inset, Sealed marker (write inset))
    (other : ∃ c rest, opening = c :: rest ∧ c ∉ marker) (pieces : List (List Char)) :
    cut marker ((ofPieces opening pieces).flatMap (Part.written write)) =
      ((ofPieces opening pieces).map (Part.pieces marker write)).foldr glue [[]] := by
  obtain ⟨c, rest, rfl, foreign⟩ := other
  fun_induction ofPieces (c :: rest) pieces with
  | case1 => rfl
  | case2 last =>
      have alone : glue (cut marker last) [[]] = cut marker last :=
        glue_nil (cutAfter_ne_nil marker 0 last)
      simpa [Part.written, Part.pieces] using alone.symm
  | case3 before unclosed =>
      have alone : glue (cut marker (c :: (rest ++ unclosed))) [[]] =
          cut marker (c :: (rest ++ unclosed)) := glue_nil (cutAfter_ne_nil marker 0 _)
      simp [Part.written, Part.pieces, cut_append (parted_of_head foreign), alone]
  | case4 before inside after others ih =>
      have sealed := closed inside
      simp only [List.flatMap_cons, List.map_cons, List.foldr_cons, Part.written, Part.pieces]
      rw [cut_append (sealed.parted_before before _), cut_append (sealed.parted_after _), ih,
        cut_eq_singleton sealed.absent]

/-! ## HTML on one line -/

theorem foldLines_append {before after : List Char}
    (whole : before.getLast? ≠ some '\r' ∨ after.head? ≠ some '\n') :
    foldLines (before ++ after) = foldLines before ++ foldLines after := by
  rw [foldLines, Text.unixEndings_append whole, List.flatMap_append]
  rfl

theorem lineFeed_not_mem_foldLines (html : List Char) : '\n' ∉ foldLines html := by
  intro member
  obtain ⟨c, -, written⟩ := List.mem_flatMap.mp member
  split at written
  · revert written
    decide
  · next other => exact other (List.mem_singleton.mp written).symm

end Inset

end Bindery
