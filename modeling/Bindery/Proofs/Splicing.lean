import Bindery.Callout
import Bindery.Proofs.Inset
import Bindery.Proofs.Outcome
import Bindery.Snippet.Engine

/-!
# What is written in the place of insets

Cutting a text at each marker is the same as looking for the first pair of markers
over and over: every pair is replaced where it stands, all else stays, and what has
been written is not searched for markers.
-/

set_option autoImplicit false

namespace Bindery

namespace Inset

/-! ## Cutting at each marker -/

/-- No marker begins before the one behind the piece. -/
def EndsFirst (marker piece rest : List Char) : Prop :=
  ∀ earlier more, piece ++ (marker ++ rest) = earlier ++ (marker ++ more) →
    piece.length ≤ earlier.length

/-- A text cut from the left. Behind each marker the search goes on. -/
inductive CutInto (marker : List Char) : List Char → List (List Char) → Prop where
  | last {text : List Char} (absent : ¬ marker <:+: text) : CutInto marker text [text]
  | marked {piece rest : List Char} {pieces : List (List Char)}
      (first : EndsFirst marker piece rest) (others : CutInto marker rest pieces) :
      CutInto marker (piece ++ (marker ++ rest)) (piece :: pieces)

/-- What stands for a piece with its index. Outside are the pieces of even index, and the last
piece is never inside. -/
def pieceWritten (marker : List Char) (write : List Char → List Char) (last : Nat)
    (piece : List Char × Nat) : List Char :=
  if piece.2 % 2 = 0 then piece.1
  else if piece.2 < last then write piece.1
  else marker ++ piece.1

def splice (marker : List Char) (write : List Char → List Char) (pieces : List (List Char)) :
    List Char :=
  pieces.zipIdx.flatMap (pieceWritten marker write (pieces.length - 1))

/-- The pieces between two markers of a pair. -/
def insets (pieces : List (List Char)) : List (List Char) :=
  pieces.zipIdx.filterMap fun piece =>
    if piece.2 % 2 = 1 ∧ piece.2 < pieces.length - 1 then some piece.1 else none

def Part.inset? : Part → Option (List Char)
  | .plain _ => none
  | .inset content => some content

section

variable {marker text : List Char}

theorem cutAfter_eq_cut_drop (marker : List Char) (taken : Nat) (text : List Char) :
    cutAfter marker taken text = cut marker (text.drop taken) := by
  induction text generalizing taken with
  | nil =>
      rw [List.drop_nil]
      cases taken <;> rfl
  | cons c rest ih =>
      cases taken with
      | zero => rfl
      | succ taken => exact ih taken

theorem cut_marker_append (nonempty : marker ≠ []) (rest : List Char) :
    cut marker (marker ++ rest) = [] :: cut marker rest := by
  cases marker with
  | nil => exact absurd rfl nonempty
  | cons c marker =>
      have found : (Text.dropStart? (c :: marker) (c :: (marker ++ rest))).isSome = true :=
        Text.isSome_dropStart?_iff.mpr (List.prefix_append (c :: marker) rest)
      rw [List.cons_append, cut, cutAfter, if_pos found, cutAfter_eq_cut_drop]
      simp

theorem cut_cons {c : Char} {rest : List Char} (other : ¬ marker <+: c :: rest) :
    cut marker (c :: rest) = Text.beforeFirst [c] (cut marker rest) := by
  rw [cut, cutAfter, if_neg (other ∘ Text.isSome_dropStart?_iff.mp), addToFirst_eq]
  rfl

theorem EndsFirst.tail {c : Char} {piece rest : List Char}
    (first : EndsFirst marker (c :: piece) rest) : EndsFirst marker piece rest := by
  intro earlier more same
  have longer := first (c :: earlier) more (congrArg (c :: ·) same)
  simpa using longer

theorem cut_of_endsFirst (nonempty : marker ≠ []) {piece rest : List Char}
    (first : EndsFirst marker piece rest) :
    cut marker (piece ++ (marker ++ rest)) = piece :: cut marker rest := by
  induction piece with
  | nil => exact cut_marker_append nonempty rest
  | cons c piece ih =>
      have other : ¬ marker <+: c :: (piece ++ (marker ++ rest)) := by
        rintro ⟨more, same⟩
        have length := first [] more same.symm
        simp at length
      rw [List.cons_append, cut_cons other, ih first.tail]
      rfl

theorem exists_endsFirst (inside : marker <:+: text) :
    ∃ piece rest, text = piece ++ (marker ++ rest) ∧ EndsFirst marker piece rest := by
  induction text with
  | nil =>
      cases List.infix_nil.mp inside
      exact ⟨[], [], rfl, fun _ _ _ => Nat.zero_le _⟩
  | cons c text ih =>
      by_cases here : marker <+: c :: text
      · obtain ⟨rest, same⟩ := here
        exact ⟨[], rest, same.symm, fun _ _ _ => Nat.zero_le _⟩
      · obtain ⟨piece, rest, rfl, first⟩ := ih ((List.infix_cons_iff.mp inside).resolve_left here)
        refine ⟨c :: piece, rest, rfl, ?_⟩
        intro earlier more same
        cases earlier with
        | nil => exact absurd ⟨more, same.symm⟩ here
        | cons d earlier =>
            have later := first earlier more (List.cons.inj same).2
            simpa using later

theorem cutInto_cut (nonempty : marker ≠ []) (text : List Char) :
    CutInto marker text (cut marker text) := by
  -- The rest behind the first marker may be any part of the text.
  induction length : text.length using Nat.strong_induction_on generalizing text with
  | _ length ih =>
      subst length
      by_cases inside : marker <:+: text
      · obtain ⟨piece, rest, rfl, first⟩ := exists_endsFirst inside
        have shorter : rest.length < (piece ++ (marker ++ rest)).length := by
          have positive := List.length_pos_of_ne_nil nonempty
          simp only [List.length_append]
          omega
        rw [cut_of_endsFirst nonempty first]
        exact .marked first (ih _ shorter rest rfl)
      · rw [cut_eq_singleton inside]
        exact .last inside

/-- There is one way to cut a text. -/
theorem cutInto_iff (nonempty : marker ≠ []) {pieces : List (List Char)} :
    CutInto marker text pieces ↔ pieces = cut marker text := by
  constructor
  · intro cutInto
    induction cutInto with
    | last absent => exact (cut_eq_singleton absent).symm
    | marked first _ ih => rw [cut_of_endsFirst nonempty first, ih]
  · rintro rfl
    exact cutInto_cut nonempty text

example : cut Snippet.marker "@@@@b@@@".toList = [[], ['@', 'b'], []] := by decide

end

/-- The part that a piece makes, by its index and the index of the last piece. -/
def partOf (marker : List Char) (last : Nat) (piece : List Char × Nat) : Part :=
  if piece.2 % 2 = 0 then .plain piece.1
  else if piece.2 < last then .inset piece.1
  else .plain (marker ++ piece.1)

theorem ofPieces_eq_map (marker : List Char) {start : Nat} (even : start % 2 = 0)
    (pieces : List (List Char)) :
    ofPieces marker pieces =
      (pieces.zipIdx start).map (partOf marker (start + pieces.length - 1)) := by
  fun_induction ofPieces marker pieces generalizing start with
  | case1 => rfl
  | case2 last => simp [partOf, even]
  | case3 before unclosed =>
      have odd : (start + 1) % 2 = 1 := by omega
      simp [partOf, even, odd]
  | case4 before inside after others ih =>
      have next : (start + 1 + 1) % 2 = 0 := by omega
      have last : start + 1 + 1 + (after :: others).length - 1 =
          start + (before :: inside :: after :: others).length - 1 := by
        simp only [List.length_cons]
        omega
      have outside : ∀ last, partOf marker last (before, start) = .plain before := by
        simp [partOf, even]
      have paired : partOf marker (start + (before :: inside :: after :: others).length - 1)
          (inside, start + 1) = .inset inside := by
        have odd : (start + 1) % 2 = 1 := by omega
        simp [partOf, odd]
      rw [ih next, last]
      simp only [List.zipIdx_cons, List.map_cons, outside, paired]

theorem flatMap_written (marker : List Char) (write : List Char → List Char)
    (pieces : List (List Char)) :
    (ofPieces marker pieces).flatMap (Part.written write) = splice marker write pieces := by
  rw [ofPieces_eq_map marker (Nat.zero_mod 2), Nat.zero_add, List.flatMap_map, splice]
  refine List.flatMap_congr fun piece _ => ?_
  simp only [partOf, pieceWritten, apply_ite (Part.written write)]
  rfl

theorem filterMap_inset (marker : List Char) (pieces : List (List Char)) :
    (ofPieces marker pieces).filterMap Part.inset? = insets pieces := by
  rw [ofPieces_eq_map marker (Nat.zero_mod 2), Nat.zero_add, List.filterMap_map, insets]
  refine List.filterMap_congr fun piece _ => ?_
  simp only [Function.comp_apply, partOf]
  grind [Part.inset?]

/-! ## Replacing pair after pair -/

/-- The leftmost pair of markers in a text, and the shortest one that begins there. -/
structure FirstPair (marker text before inside after : List Char) : Prop where
  whole : text = before ++ (marker ++ (inside ++ (marker ++ after)))
  leftmost : ∀ earlier inner rest, text = earlier ++ (marker ++ (inner ++ (marker ++ rest))) →
    before.length ≤ earlier.length
  shortest : ∀ inner rest, text = before ++ (marker ++ (inner ++ (marker ++ rest))) →
    inside.length ≤ inner.length

/-- The output has a text in the place of each pair. The search goes on behind the pair. -/
inductive Replaced (marker : List Char) (write : List Char → List Char) :
    List Char → List Char → Prop where
  | unpaired {text : List Char}
      (alone : ∀ before inside after,
        text ≠ before ++ (marker ++ (inside ++ (marker ++ after)))) :
      Replaced marker write text text
  | pair {text before inside after output : List Char}
      (first : FirstPair marker text before inside after)
      (others : Replaced marker write after output) :
      Replaced marker write text (before ++ (write inside ++ output))

section

variable {marker text : List Char}

theorem FirstPair.unique {before inside after front inner back : List Char}
    (left : FirstPair marker text before inside after)
    (right : FirstPair marker text front inner back) :
    before = front ∧ inside = inner ∧ after = back := by
  have start : before.length = front.length :=
    Nat.le_antisymm (left.leftmost _ _ _ right.whole) (right.leftmost _ _ _ left.whole)
  have same := left.whole.symm.trans right.whole
  obtain ⟨rfl, opened⟩ := List.append_inj same start
  have stop : inside.length = inner.length :=
    Nat.le_antisymm (left.shortest _ _ right.whole) (right.shortest _ _ left.whole)
  obtain ⟨rfl, closed⟩ := List.append_inj (List.append_cancel_left opened) stop
  exact ⟨rfl, rfl, List.append_cancel_left closed⟩

theorem Replaced.unique {write : List Char → List Char} {output other : List Char}
    (replaced : Replaced marker write text output) (again : Replaced marker write text other) :
    output = other := by
  induction replaced generalizing other with
  | unpaired alone =>
      cases again with
      | unpaired => rfl
      | pair first => exact absurd first.whole (alone _ _ _)
  | pair first _ ih =>
      cases again with
      | unpaired alone => exact absurd first.whole (alone _ _ _)
      | pair other others =>
          obtain ⟨rfl, rfl, rfl⟩ := first.unique other
          rw [ih others]

theorem EndsFirst.unpaired {before unclosed : List Char} (first : EndsFirst marker before unclosed)
    (absent : ¬ marker <:+: unclosed) (front inside after : List Char) :
    before ++ (marker ++ unclosed) ≠ front ++ (marker ++ (inside ++ (marker ++ after))) := by
  intro same
  have start := first front _ same
  have regrouped : (before ++ marker) ++ unclosed =
      (front ++ (marker ++ inside)) ++ (marker ++ after) := by
    simpa only [List.append_assoc] using same
  rcases List.append_eq_append_iff.mp regrouped with ⟨middle, -, rest⟩ | ⟨middle, longer, rest⟩
  · rw [rest] at absent
    exact absent ⟨middle, after, List.append_assoc _ _ _⟩
  · have length := congrArg List.length longer
    simp only [List.length_append] at length
    obtain rfl : middle = [] := List.eq_nil_of_length_eq_zero (by omega)
    rw [List.nil_append] at rest
    rw [← rest] at absent
    exact absent (List.prefix_append marker after).isInfix

theorem EndsFirst.firstPair {before inside after : List Char}
    (opens : EndsFirst marker before (inside ++ (marker ++ after)))
    (closes : EndsFirst marker inside after) :
    FirstPair marker (before ++ (marker ++ (inside ++ (marker ++ after)))) before inside after where
  whole := rfl
  leftmost earlier _ _ same := opens earlier _ same
  shortest inner rest same :=
    closes inner rest (List.append_cancel_left (List.append_cancel_left same))

theorem CutInto.replaced {pieces : List (List Char)} (cutInto : CutInto marker text pieces)
    (write : List Char → List Char) :
    Replaced marker write text ((ofPieces marker pieces).flatMap (Part.written write)) := by
  fun_induction ofPieces marker pieces generalizing text with
  | case1 => cases cutInto
  | case2 last =>
      cases cutInto with
      | last absent =>
          have alone : ∀ before inside after,
              last ≠ before ++ (marker ++ (inside ++ (marker ++ after))) := by
            rintro before inside after rfl
            exact absent ⟨before, inside ++ (marker ++ after), List.append_assoc _ _ _⟩
          simpa [Part.written] using Replaced.unpaired alone
      | marked first others => cases others
  | case3 before unclosed =>
      cases cutInto with
      | marked first others =>
          cases others with
          | last absent =>
              simpa [Part.written] using Replaced.unpaired (first.unpaired absent)
          | marked later others => cases others
  | case4 before inside after others ih =>
      cases cutInto with
      | marked opens others =>
          cases others with
          | marked closes others =>
              simpa [Part.written] using Replaced.pair (opens.firstPair closes) (ih others)

theorem replaced_iff (nonempty : marker ≠ []) {write : List Char → List Char}
    {output : List Char} :
    Replaced marker write text output ↔
      output = (parts marker text).flatMap (Part.written write) := by
  have replaced := (cutInto_cut nonempty text).replaced write
  constructor
  · intro other
    exact other.unique replaced
  · rintro rfl
    exact replaced

end

end Inset

/-! ## Snippets and callouts -/

theorem Snippet.Engine.toList_render_eq (engine : Snippet.Engine) (format : Format) (plain : Bool)
    (text : String) :
    (engine.render format plain text).toList = (Inset.parts Snippet.marker text.toList).flatMap
      (Inset.Part.written (engine.renderSnippet format plain)) := by
  rw [render, String.toList_ofList]
  refine List.flatMap_congr fun part _ => ?_
  cases part <;> rfl

namespace Callout

/-- A part of a text with its callout rendered, if it is one. -/
def renderPart (markup : Markup) (format : Format) : Inset.Part → Except BookError (List Char)
  | .plain content => .ok content
  | .inset inset => renderCallout markup format inset

theorem render_eq (markup : Markup) (format : Format) (text : String) :
    render markup format text =
      ((Inset.parts marker text.toList).mapM (renderPart markup format)).map
        fun parts => String.ofList parts.flatten := by
  have same : render markup format text =
      (Inset.parts marker text.toList).mapM (renderPart markup format) >>= fun parts =>
        .ok (String.ofList parts.flatten) := by
    unfold render
    congr
  rw [same]
  cases (Inset.parts marker text.toList).mapM (renderPart markup format) <;> rfl

section

variable {markup : Markup} {format : Format} {text output : String}

theorem mem_insets_iff {inset : List Char} {pieces : List (List Char)} :
    inset ∈ Inset.insets pieces ↔ .inset inset ∈ Inset.ofPieces marker pieces := by
  rw [← Inset.filterMap_inset marker, List.mem_filterMap]
  constructor
  · rintro ⟨part, member, same⟩
    cases part with
    | plain content => cases same
    | inset content =>
        cases same
        exact member
  · intro member
    exact ⟨_, member, rfl⟩

theorem render_eq_ok_iff :
    render markup format text = .ok output ↔
      ∃ write, (∀ inset ∈ Inset.insets (Inset.cut marker text.toList),
          renderCallout markup format inset = .ok (write inset)) ∧
        output.toList = Inset.splice marker write (Inset.cut marker text.toList) := by
  rw [render_eq]
  constructor
  · intro rendered
    obtain ⟨parts, done, rfl⟩ := map_eq_ok rendered
    let write := fun inset => (renderCallout markup format inset).toOption.getD []
    have written : ∀ inset, .inset inset ∈ Inset.parts marker text.toList →
        renderCallout markup format inset = .ok (write inset) := by
      intro inset member
      obtain ⟨div, ran⟩ := exists_ok_of_mapM done _ member
      rw [renderPart] at ran
      simp [write, ran, Except.toOption]
    have all : ∀ part ∈ Inset.parts marker text.toList,
        renderPart markup format part = .ok (part.written write) := by
      intro part member
      cases part with
      | plain content => rfl
      | inset inset => exact written inset member
    have same := Except.ok.inj (done.symm.trans (mapM_of_ok all))
    refine ⟨write, fun inset member => written inset (mem_insets_iff.mp member), ?_⟩
    rw [String.toList_ofList, same, ← List.flatMap_def]
    exact Inset.flatMap_written marker write _
  · rintro ⟨write, written, same⟩
    have all : ∀ part ∈ Inset.parts marker text.toList,
        renderPart markup format part = .ok (part.written write) := by
      intro part member
      cases part with
      | plain content => rfl
      | inset inset => exact written inset (mem_insets_iff.mpr member)
    have whole : ((Inset.parts marker text.toList).map (Inset.Part.written write)).flatten =
        output.toList := by
      rw [same, ← List.flatMap_def]
      exact Inset.flatMap_written marker write _
    rw [mapM_of_ok all, Except.map, whole, String.ofList_toList]

theorem render_eq_error_iff {error : BookError} :
    render markup format text = .error error ↔
      ∃ before failed after,
        Inset.insets (Inset.cut marker text.toList) = before ++ failed :: after ∧
          (∀ earlier ∈ before, ∃ div, renderCallout markup format earlier = .ok div) ∧
          renderCallout markup format failed = .error error := by
  have same : render markup format text = .error error ↔
      (Inset.parts marker text.toList).mapM (renderPart markup format) = .error error := by
    rw [render_eq]
    cases (Inset.parts marker text.toList).mapM (renderPart markup format) <;> simp [Except.map]
  rw [same, mapM_eq_error_iff, ← Inset.filterMap_inset marker]
  constructor
  · rintro ⟨before, part, after, split, done, fails⟩
    cases part with
    | plain content => cases fails
    | inset failed =>
        refine ⟨before.filterMap Inset.Part.inset?, failed, after.filterMap Inset.Part.inset?,
          ?_, ?_, fails⟩
        · rw [← Inset.parts, split, List.filterMap_append]
          rfl
        · intro earlier member
          obtain ⟨part, among, own⟩ := List.mem_filterMap.mp member
          cases part with
          | plain content => cases own
          | inset content =>
              cases own
              exact done _ among
  · rintro ⟨before, failed, after, split, done, fails⟩
    obtain ⟨front, back, whole, rfl, rest⟩ := List.filterMap_eq_append_iff.mp split
    obtain ⟨plain, part, others, rfl, silent, own, -⟩ := List.filterMap_eq_cons_iff.mp rest
    cases part with
    | plain content => cases own
    | inset content =>
        cases own
        refine ⟨front ++ plain, .inset failed, others, ?_, ?_, fails⟩
        · rw [Inset.parts, whole, List.append_assoc]
        · intro earlier member
          cases earlier with
          | plain content => exact ⟨content, rfl⟩
          | inset content =>
              cases List.mem_append.mp member with
              | inl among => exact done content (List.mem_filterMap.mpr ⟨_, among, rfl⟩)
              | inr among => exact absurd (silent _ among) (Option.some_ne_none content)

end

end Callout

/-- Snippets and callouts are put into the text piece by piece, as it is cut at each marker, and
so is a marker that nothing closes. That is to replace each pair of markers once. Callouts fail if
one of them does, and then like the first that does. -/
theorem render_splices (engine : Snippet.Engine) (markup : Markup) (format : Format)
    (plain : Bool) (text : String) :
    (∃ pieces, (∀ others, Inset.CutInto Snippet.marker text.toList others ↔ others = pieces) ∧
      (engine.render format plain text).toList =
        Inset.splice Snippet.marker (engine.renderSnippet format plain) pieces ∧
      ∀ output, Inset.Replaced Snippet.marker (engine.renderSnippet format plain) text.toList
        output ↔ output = (engine.render format plain text).toList) ∧
    ∃ pieces, (∀ others, Inset.CutInto Callout.marker text.toList others ↔ others = pieces) ∧
      (∀ output, Callout.render markup format text = .ok output ↔
        ∃ write, (∀ inset ∈ Inset.insets pieces,
            Callout.renderCallout markup format inset = .ok (write inset)) ∧
          output.toList = Inset.splice Callout.marker write pieces ∧
          Inset.Replaced Callout.marker write text.toList output.toList) ∧
      ∀ error, Callout.render markup format text = .error error ↔
        ∃ before failed after, Inset.insets pieces = before ++ failed :: after ∧
          (∀ earlier ∈ before, ∃ div, Callout.renderCallout markup format earlier = .ok div) ∧
          Callout.renderCallout markup format failed = .error error := by
  have snippetMarker : Snippet.marker ≠ [] := by decide
  have calloutMarker : Callout.marker ≠ [] := by decide
  refine ⟨⟨_, fun others => Inset.cutInto_iff snippetMarker, ?_, ?_⟩,
    ⟨_, fun others => Inset.cutInto_iff calloutMarker, ?_, fun error =>
      Callout.render_eq_error_iff⟩⟩
  · rw [← Inset.flatMap_written, Snippet.Engine.toList_render_eq]
    rfl
  · intro output
    rw [Inset.replaced_iff snippetMarker, Snippet.Engine.toList_render_eq]
  · intro output
    rw [Callout.render_eq_ok_iff]
    refine exists_congr fun write => and_congr_right fun _ => ?_
    rw [Inset.replaced_iff calloutMarker, ← Inset.flatMap_written]
    exact (and_self_iff).symm

end Bindery
