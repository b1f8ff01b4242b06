import Bindery.Proofs.Textile.Spans

/-!
# Stand-ins that the author wrote

What is put back at the end is told apart from the text by the characters of the
stand-ins alone. So a stand-in in the author's own text is taken for one of the
renderer's: it is lost, or a span comes to stand in its place.
-/

set_option autoImplicit false

namespace Bindery.Textile

section

variable {text : List Char} {contents : List (List Char)} {c : Char}

/-- Each stand-in takes its two signs away and leaves the span. -/
theorem count_restore (passive : isPassive c = true) (contents : List (List Char))
    (text : List Char) :
    (restore contents text).count c + (standIns text).length * [opener, closer].count c =
      text.count c + ((standIns text).flatMap (filled contents)).count c := by
  induction text using standIns_induction with
  | nil => rw [standIns, List.length_nil, Nat.zero_mul]; rfl
  | plain d rest plain ih =>
      have same : standIns (d :: rest) = standIns rest := by
        rw [standIns, plain]
        rfl
      have here : (d :: restore contents rest).count c + rest.count c =
          (restore contents rest).count c + (d :: rest).count c := by
        rw [List.count_cons, List.count_cons]
        omega
      rw [restore_plain plain, same]
      omega
  | standing digits rest read absent ih =>
      obtain ⟨decimal, -⟩ := eq_append_of_standInDigits? read
      have number := count_of_active (active_of_decimal decimal) passive
      have signs : (opener :: (digits ++ closer :: rest)).count c =
          [opener, closer].count c + rest.count c := by
        rw [List.count_cons, List.count_append, number, List.count_cons, List.count_cons,
          List.count_singleton]
        omega
      rw [restore_standing read, standIns_standing read absent, signs, List.count_append,
        List.length_cons, Nat.succ_mul, List.flatMap_cons, List.count_append]
      omega

/-- With each own stand-in once, each span stands in the text once. -/
theorem flatMap_filled (counted : contents.length ≤ UInt64.size) :
    (ownStandIns 0 contents.length).flatMap (filled contents) = contents.flatten := by
  have each : (ownStandIns 0 contents.length).map (filled contents) = contents := by
    refine List.ext_getElem (by simp [ownStandIns]) fun number _ bound => ?_
    have small := Nat.lt_of_lt_of_le bound counted
    simp only [ownStandIns, List.getElem_map, List.getElem_range', Nat.zero_add, Nat.one_mul,
      filled, index?_toString small, Option.bind_some, List.getElem?_eq_getElem bound,
      Option.getD_some]
  rw [List.flatMap_def, each]

theorem standsFor_unixEndings (text : List Char) : StandsFor (Text.unixEndings text) text := by
  fun_induction Text.unixEndings text with
  | case1 => exact .refl []
  | case2 rest ih =>
      have ending : StandsFor ['\n'] ['\r', '\n'] :=
        isSign_lineFeed.standsFor ⟨by decide, by decide⟩
      exact ending.append ih
  | case3 c rest _ ih => exact (StandsFor.refl [c]).append ih

theorem count_flatten_unixEndings (passive : isPassive c = true) (all : List (List Char)) :
    (all.map Text.unixEndings).flatten.count c = all.flatten.count c := by
  have same : StandsFor (all.flatMap Text.unixEndings) (all.flatMap id) :=
    standsFor_flatMap fun content _ => standsFor_unixEndings content
  rw [← List.flatMap_def, ← List.flatMap_id]
  exact same.carries.count c passive

/-- Only the stand-ins that were put in for spans are replaced. So each span has one slot, and the
passive characters outside the spans are still in the output, besides those of the spans. -/
structure RestoresOwn (text : List Char) : Prop where
  replaced : (standIns (renderBlocks (lift (Text.unixEndings text)))).Perm
    (ownStandIns 0 (spans text).length)
  placed : (slots (outline text)).Perm (List.range (spans text).length)
  kept : ∀ c, isPassive c = true →
    (renderChars text).count c = (outside text).count c + (spans text).flatten.count c

theorem length_spans_unixEndings (text : List Char) :
    (spans (Text.unixEndings text)).length = (spans text).length := by
  rw [spans_unixEndings, List.length_map]

/-- The stand-ins of the output are the renderer's own and those of the author. -/
theorem standIns_rendered (text : List Char) :
    (standIns (renderBlocks (lift (Text.unixEndings text)))).Perm
      (ownStandIns 0 (spans text).length ++ standIns (outside text)) := by
  have found := standIns_renderBlocks_lift (Text.unixEndings text)
  rw [length_spans_unixEndings] at found
  exact found.trans ((carries_outside_unixEndings text).standIns.append_left _)

theorem count_renderChars (counted : (spans text).length ≤ UInt64.size)
    (unwritten : standIns (outside text) = []) (passive : isPassive c = true) :
    (renderChars text).count c = (outside text).count c + (spans text).flatten.count c := by
  have found := standIns_rendered text
  rw [unwritten, List.append_nil] at found
  have restored := count_restore passive (spans (Text.unixEndings text))
    (renderBlocks (lift (Text.unixEndings text)))
  have blocks := (carries_renderBlocks (lift (Text.unixEndings text))).count c passive
  have lifted : (lift (Text.unixEndings text)).count c =
      (outside text).count c + (spans text).length * [opener, closer].count c := by
    rw [lift, liftAfter_eq, count_numbered passive, ← segments, ← spans_eq,
      length_spans_unixEndings, ← (carries_outside_unixEndings text).count c passive]
    rfl
  have contents : ((standIns (renderBlocks (lift (Text.unixEndings text)))).flatMap
      (filled (spans (Text.unixEndings text)))).count c = (spans text).flatten.count c := by
    have bound : (spans (Text.unixEndings text)).length ≤ UInt64.size := by
      rwa [length_spans_unixEndings]
    rw [(found.flatMap_right _).count_eq, ← length_spans_unixEndings, flatMap_filled bound,
      spans_unixEndings, count_flatten_unixEndings passive]
  have length : (standIns (renderBlocks (lift (Text.unixEndings text)))).length =
      (spans text).length := by
    rw [found.length_eq, ownStandIns, List.length_map, List.length_range']
  rw [length, blocks, lifted, contents] at restored
  rw [renderChars]
  omega

end

/-- The renderer puts back what it has taken out and nothing else exactly if no stand-in is written
outside the spans. A text in memory never has more spans than there are numbers of 64 bits. -/
theorem restoresOwn_iff {text : String} (counted : (spans text.toList).length ≤ UInt64.size) :
    RestoresOwn text.toList ↔ standIns (outside text.toList) = [] := by
  have found := standIns_rendered text.toList
  constructor
  · intro own
    have lengths := (own.replaced.symm.trans found).length_eq
    rw [List.length_append] at lengths
    exact List.length_eq_zero_iff.mp (by omega)
  · intro unwritten
    have replaced := found
    rw [unwritten, List.append_nil] at replaced
    refine ⟨replaced, ?_, fun c passive => count_renderChars counted unwritten passive⟩
    rw [outline, slots_frame, ← filterMap_ownStandIns counted]
    exact replaced.filterMap index?

/-- The characters of a stand-in that do not make one are kept beside a span. -/
theorem restoresOwn_beside_span :
    (spans "a <notextile>*b*</notextile> \uE000c\uE001".toList).length ≤ UInt64.size ∧
      RestoresOwn "a <notextile>*b*</notextile> \uE000c\uE001".toList := by
  have contents : spans "a <notextile>*b*</notextile> \uE000c\uE001".toList = ["*b*".toList] := by
    decide
  have counted : (spans "a <notextile>*b*</notextile> \uE000c\uE001".toList).length ≤
      UInt64.size := by
    rw [contents]
    decide
  exact ⟨counted, (restoresOwn_iff counted).mpr (by decide)⟩

/-- A text without spans loses the stand-in that its author wrote. -/
theorem written_standIn_lost : ¬ RestoresOwn "a \uE0000\uE001 b".toList := by
  intro own
  have kept := own.kept opener (by decide)
  have lost : renderChars "a \uE0000\uE001 b".toList = "<p>a  b</p>\n".toList := by decide
  rw [lost] at kept
  exact absurd kept (by decide)

example : render "<notextile>*x*</notextile> and \uE0000\uE001" = "<p>*x* and *x*</p>\n" := by
  decide

end Bindery.Textile
