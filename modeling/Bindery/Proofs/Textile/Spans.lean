import Bindery.Proofs.Textile.Carried
import Bindery.Proofs.Textile.Frame
import Bindery.Proofs.Textile.OwnLine
import Bindery.Proofs.Textile.Segment

/-!
# Spans in the output

Each span has one slot in the output, whatever stands around it, and what stands
around the slots is the same for all texts that differ only within their spans.
-/

set_option autoImplicit false

namespace Bindery.Textile

/-! ## What the author writes outside the spans -/

/-- The segments with a line feed in the place of each span. -/
def around (all : List Segment) : List Char := all.map fun segment => segment.outside?.getD '\n'

/-- The text with a line feed in the place of each span. -/
def outside (text : List Char) : List Char := around (segments text)

/-- The digits of the stand-ins for so many spans. -/
def ownStandIns (index count : Nat) : List (List Char) :=
  (List.range' index count).map fun number => (toString number).toList

section

variable {text before : List Char} {all : List Segment} {c : Char}

theorem standIns_append_numbered (before : List Char) (index : Nat) (all : List Segment) :
    (standIns (before ++ numbered index all)).Perm
      (ownStandIns index (all.filterMap Segment.content?).length ++
        standIns (before ++ around all)) := by
  induction all generalizing before index with
  | nil => exact .refl _
  | cons segment all ih =>
      cases segment with
      | plain c =>
          have later := ih (before ++ [c]) index
          rw [List.append_assoc, List.append_assoc] at later
          exact later
      | span content =>
          have later := ih [] (index + 1)
          have begins := all_of_ends (head?_standIn_append index (numbered (index + 1) all))
          have feed : standIns (before ++ around (.span content :: all)) =
              standIns before ++ standIns (around all) := isSign_lineFeed.standIns_append
          rw [numbered, standIns_append begins, standIns_standIn_append, feed]
          -- The stand-in of the span comes to the front.
          refine List.perm_middle.trans (.cons _ ?_)
          exact (later.append_left _).trans (List.perm_append_comm_assoc _ _ _)

/-- In a text with stand-ins for its spans are those and what reads like one outside. -/
theorem standIns_lift (text : List Char) :
    (standIns (lift text)).Perm
      (ownStandIns 0 (spans text).length ++ standIns (outside text)) := by
  rw [lift, liftAfter_eq, spans_eq]
  exact standIns_append_numbered [] 0 (segments text)

theorem standIns_renderBlocks_lift (text : List Char) :
    (standIns (renderBlocks (lift text))).Perm
      (ownStandIns 0 (spans text).length ++ standIns (outside text)) :=
  (carries_renderBlocks (lift text)).standIns.trans (standIns_lift text)

/-- Line endings are not carried. -/
theorem standsFor_around_unixSegments (all : List Segment) :
    StandsFor (around (unixSegments all)) (around all) := by
  fun_induction unixSegments all with
  | case1 => exact .refl []
  | case2 rest ih =>
      have ending : StandsFor ['\n'] ['\r', '\n'] :=
        isSign_lineFeed.standsFor ⟨by decide, by decide⟩
      exact ending.append ih
  | case3 c rest _ ih => exact (StandsFor.refl [c]).append ih
  | case4 content rest ih => exact (StandsFor.refl ['\n']).append ih

theorem carries_outside_unixEndings (text : List Char) :
    Carries (outside (Text.unixEndings text)) (outside text) := by
  rw [outside, segments_unixEndings]
  exact (standsFor_around_unixSegments (segments text)).carries

theorem count_standIn (passive : isPassive c = true) (index : Nat) :
    (standIn index).count c = [opener, closer].count c := by
  have digits : (toString index).toList.count c = 0 := by
    refine count_of_active (fun d member => ?_) passive
    exact active_of_isDecimalDigit (isDecimalDigit_of_isDigit (isDigit_of_mem_toString member))
  rw [standIn, List.cons_append, List.count_cons, List.count_append, digits, Nat.zero_add,
    ← List.count_cons]

theorem count_numbered (passive : isPassive c = true) (index : Nat) (all : List Segment) :
    (numbered index all).count c =
      (around all).count c + (all.filterMap Segment.content?).length * [opener, closer].count c := by
  induction all generalizing index with
  | nil =>
      rw [List.filterMap_nil, List.length_nil, Nat.zero_mul]
      rfl
  | cons segment all ih =>
      cases segment with
      | plain d =>
          have here : around (.plain d :: all) = d :: around all := rfl
          rw [numbered, here, List.count_cons, List.count_cons, ih index, Nat.add_right_comm,
            List.filterMap_cons_none rfl]
      | span content =>
          have here : around (.span content :: all) = ['\n'] ++ around all := rfl
          have feed := count_of_active isSign_lineFeed.active passive
          have one : Segment.content? (.span content) = some content := rfl
          rw [numbered, here, List.count_append, List.count_append, count_standIn passive, feed,
            ih (index + 1), List.filterMap_cons_some one, List.length_cons, Nat.succ_mul]
          omega

end

/-! ## One slot for each span -/

section

variable {text : List Char}

theorem mem_of_plain_mem {c : Char} (member : .plain c ∈ segments text) : c ∈ text := by
  rw [← source_segments text]
  exact List.mem_flatMap_of_mem member (List.mem_singleton_self c)

theorem mem_of_mem_unixEndings {c : Char} (other : c ≠ '\n')
    (member : c ∈ Text.unixEndings text) : c ∈ text := by
  have oneLine : '\n' ∉ [c] := fun feed => other (List.mem_singleton.mp feed).symm
  rw [← List.singleton_infix_iff] at member ⊢
  exact infix_of_unixEndings oneLine member

theorem filterMap_ownStandIns {count : Nat} (counted : count ≤ UInt64.size) :
    (ownStandIns 0 count).filterMap index? = List.range count := by
  rw [ownStandIns, ← List.range_eq_range', List.filterMap_map]
  refine (List.filterMap_congr fun index member => ?_).trans (List.filterMap_some)
  exact index?_toString (Nat.lt_of_lt_of_le (List.mem_range.mp member) counted)

/-- Each stand-in has one slot in the output, and there are no other slots. -/
theorem slots_perm (reserved : opener ∉ text) (counted : (spans text).length ≤ UInt64.size) :
    (slots (frame (renderBlocks (lift text)))).Perm (List.range (spans text).length) := by
  have none : standIns (outside text) = [] := by
    refine standIns_of_not_mem fun member => ?_
    obtain ⟨segment, among, same⟩ := List.mem_map.mp member
    cases segment with
    | plain c => exact reserved (mem_of_plain_mem (same ▸ among))
    | span content => exact absurd same (by decide : '\n' ≠ opener)
  have found := (standIns_renderBlocks_lift text).filterMap index?
  rwa [none, List.append_nil, filterMap_ownStandIns counted, ← slots_frame] at found

end

/-! ## The output with the spans put back -/

section

variable {text other content : List Char}

theorem reserved_unixEndings (reserved : opener ∉ text) : opener ∉ Text.unixEndings text :=
  fun member => reserved (mem_of_mem_unixEndings (by decide) member)

/-- The frame of the output. -/
def outline (text : List Char) : List Slot := frame (renderBlocks (lift (Text.unixEndings text)))

theorem renderChars_eq (text : List Char) :
    renderChars text = fill ((spans text).map Text.unixEndings) (outline text) := by
  rw [renderChars, spans_unixEndings, restore_eq_fill, outline]

theorem outline_of_sameAround (same : SameAround text other) : outline text = outline other := by
  rw [outline, outline, lift_of_sameAround same.unixEndings]

theorem slots_outline (reserved : opener ∉ text) (counted : (spans text).length ≤ UInt64.size) :
    (slots (outline text)).Perm (List.range (spans text).length) := by
  have each := slots_perm (reserved_unixEndings reserved)
    (by rwa [spans_unixEndings, List.length_map])
  rwa [spans_unixEndings, List.length_map] at each

theorem fill_eq_of_slots {contents others : List (List Char)} {frame : List Slot}
    (same : ∀ index ∈ slots frame, contents[index]? = others[index]?) :
    fill contents frame = fill others frame := by
  refine List.flatMap_congr fun slot member => ?_
  cases slot with
  | plain c => rfl
  | span index =>
      have among : index ∈ slots frame := List.mem_filterMap.mpr ⟨_, member, rfl⟩
      rw [Slot.fill, Slot.fill, same index among]

/-- Further spans do not change what stands before them. -/
theorem renderChars_eq_restore (reserved : opener ∉ text)
    (counted : (spans text).length ≤ UInt64.size) (contents : List (List Char)) :
    renderChars text = restore ((spans text).map Text.unixEndings ++ contents)
      (renderBlocks (lift (Text.unixEndings text))) := by
  rw [renderChars_eq, restore_eq_fill, ← outline]
  refine fill_eq_of_slots fun index member => ?_
  have bound := List.mem_range.mp ((slots_outline reserved counted).subset member)
  rw [List.getElem?_append_left (by rwa [List.length_map])]

variable {before after : List Segment}

theorem text_of_cut (cut : segments text = before ++ .span content :: after) :
    text = source before ++ (written content ++ source after) := by
  rw [← source_segments text, cut, source_append]
  rfl

theorem segments_source_after (cut : segments text = before ++ .span content :: after) :
    segments (source after) = after := by
  have split : segments text = (before ++ [.span content]) ++ after := by
    rw [cut, List.append_assoc]
    rfl
  exact (segments_source split).2

theorem spans_of_cut (cut : segments text = before ++ .span content :: after) :
    spans text = spans (source before) ++ content :: spans (source after) := by
  rw [spans_eq, cut, List.filterMap_append, spans_eq, (segments_source cut).1, spans_eq,
    segments_source_after cut]
  rfl

theorem lift_unixEndings_of_cut (cut : segments text = before ++ .span content :: after) :
    lift (Text.unixEndings text) = lift (Text.unixEndings (source before)) ++
      (standIn (spans (source before)).length ++
        liftAfter 0 ((spans (source before)).length + 1) (Text.unixEndings (source after))) := by
  have first : segments (Text.unixEndings (source before)) = unixSegments before := by
    rw [segments_unixEndings, (segments_source cut).1]
  have last : segments (Text.unixEndings (source after)) = unixSegments after := by
    rw [segments_unixEndings, segments_source_after cut]
  have earlier : (unixSegments before).filterMap Segment.content? =
      (spans (source before)).map Text.unixEndings := by
    rw [filterMap_unixSegments, spans_eq, (segments_source cut).1]
  rw [lift_eq, segments_unixEndings, cut, unixSegments_append_span, numbered_append, earlier,
    List.length_map, Nat.zero_add, lift_eq, first, liftAfter_eq, ← segments, last]
  rfl

/-- The span behind those of the first part is the one that stands there. -/
theorem getElem?_spans_of_cut (cut : segments text = before ++ .span content :: after) :
    ((spans text).map Text.unixEndings)[(spans (source before)).length]? =
      some (Text.unixEndings content) := by
  rw [List.getElem?_map, spans_of_cut cut, List.getElem?_append_right (Nat.le_refl _),
    Nat.sub_self]
  rfl

theorem restore_lineFeed (contents : List (List Char)) (rest : List Char) :
    restore contents ('\n' :: rest) = '\n' :: restore contents rest := by
  have absent : opener ∉ ['\n'] := by decide
  exact restore_append_of_not_mem absent

/-- A span on lines of its own stands between the blocks before it and those behind it. -/
theorem renderChars_ownLine (reserved : opener ∉ text)
    (counted : (spans text).length ≤ UInt64.size)
    (cut : segments text = before ++ .span content :: after) (opens : OpensLine (source before))
    (closes : ClosesLine (source after)) :
    renderChars text = renderChars (source before) ++ (Text.unixEndings content ++
      '\n' :: restore ((spans text).map Text.unixEndings) (renderBlocks
        (liftAfter 0 ((spans (source before)).length + 1) (Text.unixEndings (source after))))) := by
  have all := spans_of_cut cut
  have fewer : (spans (source before)).length < UInt64.size := by
    rw [all, List.length_append, List.length_cons] at counted
    omega
  have absent : opener ∉ source before := fun member =>
    reserved (text_of_cut cut ▸ List.mem_append_left _ member)
  have earlier : renderChars (source before) = restore ((spans text).map Text.unixEndings)
      (renderBlocks (lift (Text.unixEndings (source before)))) := by
    rw [renderChars_eq_restore absent fewer.le ((content :: spans (source after)).map _),
      ← List.map_append, ← all]
  rw [earlier, renderChars, spans_unixEndings, lift_unixEndings_of_cut cut,
    renderBlocks_ownLine opens.unixEndings.lift (closes.unixEndings.liftAfter _),
    restore_append (head?_standIn_append _ _), restore_standIn fewer, getElem?_spans_of_cut cut,
    Option.getD_some, restore_lineFeed]

end

/-- Each span goes into the output once, as it is but for its line endings and without its tags.
The rest of the output is the same for all texts that differ only within their spans. A span with
only blanks around it on its lines stands between blocks: what comes before it is rendered as if
nothing followed, and the blocks behind it begin anew. A text in memory never has more spans than
there are numbers of 64 bits. -/
theorem spans_pass_through {text : String} (reserved : opener ∉ text.toList)
    (counted : (spans text.toList).length ≤ UInt64.size) :
    ∃ frame : List Slot,
      (slots frame).Perm (List.range (spans text.toList).length) ∧
      (∀ other : String, SameAround text.toList other.toList →
        (render other).toList = fill ((spans other.toList).map Text.unixEndings) frame) ∧
      ∀ before content after, segments text.toList = before ++ .span content :: after →
        OpensLine (source before) → ClosesLine (source after) →
        (render text).toList = (render (String.ofList (source before))).toList ++
          (Text.unixEndings content ++ '\n' ::
            restore ((spans text.toList).map Text.unixEndings) (renderBlocks (liftAfter 0
              ((spans (source before)).length + 1) (Text.unixEndings (source after))))) := by
  have rendered : ∀ text : String, (render text).toList = renderChars text.toList :=
    fun text => String.toList_ofList
  refine ⟨outline text.toList, slots_outline reserved counted, fun other same => ?_, ?_⟩
  · rw [rendered, renderChars_eq, outline_of_sameAround same]
  · intro before content after cut opens closes
    rw [rendered, rendered, String.toList_ofList]
    exact renderChars_ownLine reserved counted cut opens closes

/-- Two paragraphs and markup between them. -/
theorem spans_pass_through_between :
    ∃ frame rest, (slots frame).Perm [0] ∧
      (render "a\n<notextile>*b*</notextile>\nc").toList = fill ["*b*".toList] frame ∧
      (render "a\n<notextile>*b*</notextile>\nc").toList =
        (render "a\n").toList ++ ("*b*".toList ++ '\n' :: rest) := by
  have contents : spans "a\n<notextile>*b*</notextile>\nc".toList = ["*b*".toList] := by
    decide
  have reserved : opener ∉ "a\n<notextile>*b*</notextile>\nc".toList := by decide
  have cut : segments "a\n<notextile>*b*</notextile>\nc".toList =
      "a\n".toList.map .plain ++ .span "*b*".toList :: "\nc".toList.map .plain := by
    decide
  have counted : (spans "a\n<notextile>*b*</notextile>\nc".toList).length ≤ UInt64.size := by
    rw [contents]
    decide
  obtain ⟨frame, once, filled, apart⟩ := spans_pass_through reserved counted
  rw [contents] at once
  have around := filled _ rfl
  rw [contents] at around
  have opens : OpensLine (source ("a\n".toList.map .plain)) :=
    ⟨"a\n".toList, [], by decide, .inr (by decide), nofun⟩
  have closes : ClosesLine (source ("\nc".toList.map .plain)) :=
    ⟨[], "\nc".toList, by decide, .inr (by decide), nofun⟩
  have before : String.ofList (source ("a\n".toList.map .plain)) = "a\n" := by decide
  have alone := apart _ _ _ cut opens closes
  rw [before] at alone
  exact ⟨frame, _, once, around, alone⟩

end Bindery.Textile
