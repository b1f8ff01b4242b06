import Bindery.Html.Writer
import Bindery.Proofs.Html.Contents
import Bindery.Proofs.Html.Progress
import Bindery.Proofs.Snippet.Sealed

/-!
# References to carriage returns

A document reads every line ending as a line feed. So a carriage return gets into it only where a
numeric reference has the number of one.
-/

set_option autoImplicit false

namespace Bindery.Html

/-! ## Numeric references -/

/-- The number that digits at the start of a text spell. -/
def leadingNumber? (base : Nat) (digitOf : Char → Option Nat) (text : List Char) : Option Nat :=
  let digits := text.takeWhile fun c => (digitOf c).isSome
  if digits.isEmpty then none else some (numeral base digitOf digits)

/-- The number of the numeric reference that a text behind an ampersand begins with. -/
def referenceNumber? : List Char → Option Nat
  | '#' :: 'x' :: rest => leadingNumber? 16 hexDigit? rest
  | '#' :: 'X' :: rest => leadingNumber? 16 hexDigit? rest
  | '#' :: rest => leadingNumber? 10 digit? rest
  | _ => none

/-- Whether a numeric reference of the text has the number of a carriage return. -/
def namesReturn : List Char → Bool
  | [] => false
  | '&' :: rest => referenceNumber? rest == some 13 || namesReturn rest
  | _ :: rest => namesReturn rest

example : namesReturn "a&#x0D;b".toList = true ∧ namesReturn "a&#131;&#10;".toList = false := by
  decide

theorem numericReference_eq_return {code : Nat} (same : numericReference code = '\r') :
    code = 13 := by
  have controls : ∀ code ∈ legacyControls, code.isValidChar ∧ code ≠ 13 := by decide
  have ofNat : ∀ {code : Nat}, code.isValidChar → Char.ofNat code = '\r' → code = 13 := by
    intro code valid same
    rw [Char.ofNat, dif_pos valid] at same
    exact congrArg Char.toNat same
  unfold numericReference at same
  split at same
  · exact absurd same (by decide)
  · next inside =>
      push Not at inside
      obtain ⟨some, small, surrogate⟩ := inside
      have valid : code.isValidChar := by
        unfold Nat.isValidChar
        omega
      split at same
      · next control =>
          have listed : code - 0x80 < legacyControls.length := by
            rw [show legacyControls.length = 32 from rfl]
            omega
          rw [List.getElem?_eq_getElem listed, Option.getD_some] at same
          obtain ⟨known, other⟩ := controls _ (List.getElem_mem listed)
          exact absurd (ofNat known same) other
      · exact ofNat valid same

theorem leadingNumber?_of_readNumeral {base : Nat} {digitOf : Char → Option Nat}
    {text value rest : List Char} (read : readNumeral base digitOf text = some (value, rest))
    (member : '\r' ∈ value) : leadingNumber? base digitOf text = some 13 := by
  unfold readNumeral at read
  dsimp only at read
  split at read
  · cases read
  · next some =>
      cases read
      have number := numericReference_eq_return (List.mem_singleton.mp member).symm
      rw [leadingNumber?, if_neg some, number]

/-! ## Named references -/

def isReturnless (group : (Char × Char) × List Char) : Bool :=
  (pairEntities (Text.words group.2)).all fun entity => !entity.2.contains '\r'

set_option maxRecDepth 10000 in
theorem isReturnless_of_mem_entityGroups :
    ∀ group ∈ entityGroups, isReturnless (group.1, group.2.toList) = true := by
  apply Spells.all
  · unfold entityGroups
    repeat apply Spells.cons
    exact .nil
  · decide +kernel

theorem return_not_mem_of_mem_entitiesAt {text : List Char} {entity : List Char × List Char}
    (member : entity ∈ entitiesAt text) : '\r' ∉ entity.2 := by
  obtain ⟨group, listed, among⟩ := exists_group_of_mem_entitiesAt member
  obtain ⟨⟨letters, source⟩, known, rfl⟩ := List.mem_map.mp listed
  have plain := isReturnless_of_mem_entityGroups _ known
  rw [isReturnless, List.all_eq_true] at plain
  simpa using plain entity among

/-- The longest name stands for a text of the table, and the rest of the text is behind it. -/
theorem longestName_spec {text : List Char} {found : Found}
    (longest : longestName text = some found) :
    '\r' ∉ found.2.1 ∧ found.2.2.2 <:+ text := by
  rw [longestName_eq] at longest
  suffices ∀ (names : List (List Char × List Char)) (best : Option Found),
      (∀ entity ∈ names, '\r' ∉ entity.2) →
        (∀ found ∈ best, '\r' ∉ found.2.1 ∧ found.2.2.2 <:+ text) →
          ∀ found ∈ names.foldl (longer text) best, '\r' ∉ found.2.1 ∧ found.2.2.2 <:+ text from
    this _ none (fun _ => return_not_mem_of_mem_entitiesAt) nofun found longest
  intro names
  induction names with
  | nil => exact fun best _ known => known
  | cons entity names ih =>
      intro best plain known
      obtain ⟨first, others⟩ := List.forall_mem_cons.mp plain
      refine ih _ others ?_
      unfold longer
      cases dropped : Text.dropStart? entity.1 text with
      | none => exact known
      | some rest =>
          have behind : rest <:+ text := ⟨_, (Text.dropStart?_eq_some_iff.mp dropped).symm⟩
          dsimp only
          split
          · rintro found ⟨⟩
            exact ⟨first, behind⟩
          · split
            · rintro found ⟨⟩
              exact ⟨first, behind⟩
            · exact known

theorem skipSemicolon_suffix (text : List Char) : skipSemicolon text <:+ text := by
  unfold skipSemicolon
  split
  · exact List.suffix_cons _ _
  · exact List.suffix_refl _

theorem readNumeral_suffix {base : Nat} {digitOf : Char → Option Nat} {text value rest : List Char}
    (read : readNumeral base digitOf text = some (value, rest)) : rest <:+ text := by
  unfold readNumeral at read
  dsimp only at read
  split at read
  · cases read
  · cases read
    exact (skipSemicolon_suffix _).trans (List.drop_suffix _ _)

/-- Only a numeric reference stands for a carriage return. -/
theorem readReference_spec {inValue : Bool} {text value rest : List Char}
    (read : readReference inValue text = some (value, rest)) :
    rest <:+ text ∧ ('\r' ∈ value → referenceNumber? text = some 13) := by
  unfold readReference at read
  split at read
  · next after =>
      have behind := (readNumeral_suffix read).trans (List.suffix_cons 'x' after)
      exact ⟨behind.trans (List.suffix_cons _ _), leadingNumber?_of_readNumeral read⟩
  · next after =>
      have behind := (readNumeral_suffix read).trans (List.suffix_cons 'X' after)
      exact ⟨behind.trans (List.suffix_cons _ _), leadingNumber?_of_readNumeral read⟩
  · next after lower upper =>
      refine ⟨(readNumeral_suffix read).trans (List.suffix_cons _ _), fun member => ?_⟩
      rw [referenceNumber?]
      · exact leadingNumber?_of_readNumeral read member
      · exact lower
      · exact upper
  · cases read
  · split at read
    · split at read
      · cases read
      · next longest =>
          obtain ⟨plain, behind⟩ := longestName_spec longest
          split at read
          · cases read
          · cases read
            exact ⟨behind, fun member => absurd member plain⟩
    · cases read

/-! ## Texts without such references -/

/-- The text has no carriage return and no reference to one. -/
structure Unreturning (text : List Char) : Prop where
  plain : '\r' ∉ text
  unnamed : namesReturn text = false

namespace Unreturning

variable {c : Char} {text rest : List Char}

theorem tail (clear : Unreturning (c :: text)) : Unreturning text := by
  refine ⟨fun member => clear.plain (List.mem_cons_of_mem _ member), ?_⟩
  have unnamed := clear.unnamed
  unfold namesReturn at unnamed
  split at unnamed
  · next absent => cases absent
  · next begins =>
      cases begins
      exact (Bool.or_eq_false_iff.mp unnamed).2
  · next begins =>
      cases begins
      exact unnamed

theorem head_ne (clear : Unreturning (c :: text)) : c ≠ '\r' :=
  fun same => clear.plain (same ▸ List.mem_cons_self)

theorem suffix (clear : Unreturning text) (behind : rest <:+ text) : Unreturning rest := by
  induction text with
  | nil =>
      obtain rfl := List.suffix_nil.mp behind
      exact clear
  | cons c text ih =>
      rcases List.suffix_cons_iff.mp behind with rfl | inside
      · exact clear
      · exact ih clear.tail inside

theorem drop (clear : Unreturning text) (count : Nat) : Unreturning (text.drop count) :=
  clear.suffix (List.drop_suffix _ _)

theorem referenceNumber?_ne (clear : Unreturning ('&' :: text)) :
    referenceNumber? text ≠ some 13 := by
  have unnamed := clear.unnamed
  rw [namesReturn, Bool.or_eq_false_iff] at unnamed
  exact fun same => absurd unnamed.1 (by simp [same])

theorem readReference {inValue : Bool} {value : List Char} (clear : Unreturning ('&' :: text))
    (read : readReference inValue text = some (value, rest)) :
    '\r' ∉ value ∧ Unreturning rest := by
  obtain ⟨behind, named⟩ := readReference_spec read
  exact ⟨fun member => clear.referenceNumber?_ne (named member), clear.tail.suffix behind⟩

end Unreturning

/-! ## Tags -/

/-- No digit follows, so a number is complete. -/
def EndsNumber (behind : List Char) : Prop :=
  ∀ c ∈ behind.head?, hexDigit? c = none ∧ digit? c = none

theorem leadingNumber?_append {base number : Nat} {digitOf : Char → Option Nat}
    {text behind : List Char} (ends : ∀ c ∈ behind.head?, digitOf c = none)
    (found : leadingNumber? base digitOf text = some number) :
    leadingNumber? base digitOf (text ++ behind) = some number := by
  have stopped : behind.takeWhile (fun c => (digitOf c).isSome) = [] := by
    cases behind with
    | nil => rfl
    | cons c behind => rw [List.takeWhile_cons_of_neg (by simp [ends c rfl])]
  have same : (text ++ behind).takeWhile (fun c => (digitOf c).isSome) =
      text.takeWhile fun c => (digitOf c).isSome := by
    rw [List.takeWhile_append]
    split
    · next whole =>
        rw [stopped, List.append_nil, (List.takeWhile_prefix _).eq_of_length whole]
    · rfl
  rw [leadingNumber?, same]
  exact found

theorem referenceNumber?_append {number : Nat} {text behind : List Char} (ends : EndsNumber behind)
    (found : referenceNumber? text = some number) :
    referenceNumber? (text ++ behind) = some number := by
  unfold referenceNumber? at found
  split at found
  · exact leadingNumber?_append (fun c first => (ends c first).1) found
  · exact leadingNumber?_append (fun c first => (ends c first).1) found
  · next rest lower upper =>
      cases rest with
      | nil => cases found
      | cons c rest =>
          rw [List.cons_append, List.cons_append, referenceNumber?]
          · exact leadingNumber?_append (fun c first => (ends c first).2) found
          · rintro after ⟨rfl, -⟩
            exact lower rest rfl
          · rintro after ⟨rfl, -⟩
            exact upper rest rfl
  · cases found

/-- A value that is followed by no digit stands for no carriage return. -/
theorem return_not_mem_decodeValue {value behind : List Char} (ends : EndsNumber behind)
    (clear : Unreturning (value ++ behind)) : '\r' ∉ decodeValue value := by
  unfold decodeValue
  generalize value.length = bound
  induction bound generalizing value with
  | zero => exact List.not_mem_nil
  | succ bound ih =>
      cases value with
      | nil => exact List.not_mem_nil
      | cons c value =>
          have later := ih clear.tail
          by_cases sign : c = '&'
          · subst sign
            rw [decodeWithin]
            split
            · next meant after read =>
                obtain ⟨⟨front, rfl⟩, named⟩ := readReference_spec read
                have plain : '\r' ∉ meant := fun member =>
                  clear.referenceNumber?_ne (referenceNumber?_append ends (named member))
                rw [List.mem_append, not_or]
                exact ⟨plain, ih (clear.tail.suffix ⟨front, (List.append_assoc _ _ _).symm⟩)⟩
            · rw [List.mem_cons, not_or]
              exact ⟨by decide, later⟩
          · rw [decodeWithin]
            · rw [List.mem_cons, not_or]
              exact ⟨fun same => clear.plain (same ▸ List.mem_cons_self), later⟩
            · exact sign

theorem toLower_ne_return {c : Char} (other : c ≠ '\r') : c.toLower ≠ '\r' := by
  unfold Char.toLower
  split
  · next letter =>
      intro same
      have lower : 65 ≤ c.val.toNat := UInt32.le_iff_toNat_le.mp letter.1
      have upper : c.val.toNat ≤ 90 := UInt32.le_iff_toNat_le.mp letter.2
      have number : (c.val + ('a'.val - 'A'.val)).toNat = 13 := congrArg Char.toNat same
      rw [UInt32.toNat_add] at number
      change (c.val.toNat + 32) % 2 ^ 32 = 13 at number
      omega
  · exact other

theorem withoutNull_ne_return {c : Char} (other : c ≠ '\r') : withoutNull c ≠ '\r' := by
  unfold withoutNull
  split
  · decide
  · exact other

theorem return_not_mem_map {change : Char → Char} (keeps : ∀ c, c ≠ '\r' → change c ≠ '\r')
    {text : List Char} (plain : '\r' ∉ text) : '\r' ∉ text.map change := by
  intro member
  obtain ⟨c, among, same⟩ := List.mem_map.mp member
  exact keeps c (fun own => plain (own ▸ among)) same

theorem leadingNumber?_map_withoutNull {base number : Nat} {digitOf : Char → Option Nat}
    (apart : digitOf '\x00' = none ∧ digitOf replacement = none) {text : List Char}
    (found : leadingNumber? base digitOf (text.map withoutNull) = some number) :
    leadingNumber? base digitOf text = some number := by
  have same : ((text.map withoutNull).takeWhile fun c => (digitOf c).isSome) =
      text.takeWhile fun c => (digitOf c).isSome := by
    rw [List.takeWhile_map]
    have digits : ∀ c, (digitOf (withoutNull c)).isSome = (digitOf c).isSome := by
      intro c
      unfold withoutNull
      split
      · next null => rw [null, apart.1, apart.2]
      · rfl
    have kept : ∀ c ∈ text.takeWhile (fun c => (digitOf c).isSome), withoutNull c = c := by
      intro c member
      refine if_neg ?_
      rintro rfl
      exact absurd (List.mem_takeWhile_imp member) (by simp [apart.1])
    simp only [Function.comp_def, digits]
    rw [List.map_congr_left kept, List.map_id']
  rw [leadingNumber?, same] at found
  exact found

theorem exists_of_map_withoutNull {text rest : List Char} {c : Char}
    (begins : text.map withoutNull = c :: rest) (other : c ≠ replacement) :
    ∃ behind, text = c :: behind ∧ rest = behind.map withoutNull := by
  obtain ⟨d, behind, rfl, same, rfl⟩ := List.map_eq_cons_iff.mp begins
  unfold withoutNull at same
  split at same
  · exact absurd same.symm other
  · exact ⟨behind, same ▸ rfl, rfl⟩

theorem referenceNumber?_map_withoutNull {number : Nat} {text : List Char}
    (found : referenceNumber? (text.map withoutNull) = some number) :
    referenceNumber? text = some number := by
  have hexadecimal : hexDigit? '\x00' = none ∧ hexDigit? replacement = none := by decide
  have decimal : digit? '\x00' = none ∧ digit? replacement = none := by decide
  unfold referenceNumber? at found
  split at found
  · next begins =>
      obtain ⟨_, rfl, second⟩ := exists_of_map_withoutNull begins (by decide)
      obtain ⟨_, rfl, rfl⟩ := exists_of_map_withoutNull second.symm (by decide)
      exact leadingNumber?_map_withoutNull hexadecimal found
  · next begins =>
      obtain ⟨_, rfl, second⟩ := exists_of_map_withoutNull begins (by decide)
      obtain ⟨_, rfl, rfl⟩ := exists_of_map_withoutNull second.symm (by decide)
      exact leadingNumber?_map_withoutNull hexadecimal found
  · next rest lower upper begins =>
      obtain ⟨_, rfl, rfl⟩ := exists_of_map_withoutNull begins (by decide)
      rw [referenceNumber?]
      · exact leadingNumber?_map_withoutNull decimal found
      · rintro after rfl
        exact lower _ rfl
      · rintro after rfl
        exact upper _ rfl
  · cases found

namespace Unreturning

variable {text : List Char}

theorem map_withoutNull (clear : Unreturning text) : Unreturning (text.map withoutNull) := by
  refine ⟨return_not_mem_map (fun _ => withoutNull_ne_return) clear.plain, ?_⟩
  induction text with
  | nil => rfl
  | cons c text ih =>
      have later := ih clear.tail
      rw [List.map_cons]
      by_cases sign : c = '&'
      · subst sign
        have unnamed : referenceNumber? (text.map withoutNull) ≠ some 13 := fun named =>
          clear.referenceNumber?_ne (referenceNumber?_map_withoutNull named)
        change (referenceNumber? (text.map withoutNull) == some 13 || _) = false
        rw [later, Bool.or_false]
        simpa using unnamed
      · rw [namesReturn]
        · exact later
        · intro same
          refine sign ?_
          unfold withoutNull at same
          split at same
          · exact absurd same (by decide)
          · exact same

end Unreturning

theorem nameChar_ne_return {c : Char} (other : c ≠ '\r') : nameChar c ≠ '\r' :=
  withoutNull_ne_return (toLower_ne_return other)

/-- Whether the characters behind the place belong to a value. -/
def TagPlace.inValue : TagPlace → Bool
  | .quoted _ | .unquoted => true
  | _ => false

/-- Whether the value of the attribute at the place is still to come. -/
def TagPlace.beforeAnyValue : TagPlace → Bool
  | .inName | .afterName | .beforeValue => true
  | _ => false

/-- What has been read of a tag has no carriage return, and the value that is being read names
none together with the text that is still to come. -/
structure TagDraft.Clear (place : TagPlace) (draft : TagDraft) (text : List Char) : Prop where
  done : ∀ item ∈ draft.done, Returnless item.1 ∧ Returnless item.2
  name : '\r' ∉ draft.name
  unnamed : draft.name = [] → draft.value = []
  named : (place.beforeAnyValue || place.inValue) = true → draft.name ≠ []
  empty : place.beforeAnyValue = true → draft.value = []
  complete : place.inValue = false → '\r' ∉ decodeValue draft.value.reverse
  inside : place.inValue = true →
    Unreturning (draft.value.reverse ++ text.map withoutNull)
  quoted : ∀ quote, place = .quoted quote → hexDigit? quote = none ∧ digit? quote = none

namespace TagDraft

variable {place : TagPlace} {draft : TagDraft} {c : Char} {text : List Char}

theorem clear_empty (text : List Char) : Clear .beforeName .empty text where
  done := nofun
  name := List.not_mem_nil
  unnamed _ := rfl
  named := nofun
  empty := nofun
  complete _ := by decide
  inside := nofun
  quoted := nofun

/-- A value is complete at a character that is no digit. -/
theorem Clear.complete_at (clear : Clear place draft (c :: text))
    (ends : hexDigit? c = none ∧ digit? c = none) : '\r' ∉ decodeValue draft.value.reverse := by
  cases inside : place.inValue with
  | false => exact clear.complete inside
  | true =>
      have follows : EndsNumber ((c :: text).map withoutNull) := by
        rintro d ⟨⟩
        unfold withoutNull
        split
        · decide
        · exact ends
      exact return_not_mem_decodeValue follows (clear.inside inside)

theorem done_close (done : ∀ item ∈ draft.done, Returnless item.1 ∧ Returnless item.2)
    (name : '\r' ∉ draft.name) (complete : '\r' ∉ decodeValue draft.value.reverse) :
    ∀ item ∈ draft.close.done, Returnless item.1 ∧ Returnless item.2 := by
  unfold close
  split
  · exact done
  · dsimp only
    split
    · exact done
    · refine List.forall_mem_cons.mpr
        ⟨⟨returnless_ofList.mpr ?_, returnless_ofList.mpr complete⟩, done⟩
      rwa [List.mem_reverse]

theorem value_close (unnamed : draft.name = [] → draft.value = []) : draft.close.value = [] := by
  unfold close
  split
  · next none => exact unnamed (List.isEmpty_iff.mp none)
  · dsimp only
    split <;> rfl

theorem clear_openName (done : ∀ item ∈ draft.done, Returnless item.1 ∧ Returnless item.2)
    (name : '\r' ∉ draft.name) (unnamed : draft.name = [] → draft.value = [])
    (complete : '\r' ∉ decodeValue draft.value.reverse) (other : c ≠ '\r') :
    Clear (openName draft c).1 (openName draft c).2 text := by
  unfold openName
  split
  · exact ⟨done, name, unnamed, nofun, nofun, fun _ => complete, nofun, nofun⟩
  · split
    · exact ⟨done, name, unnamed, nofun, nofun, fun _ => complete, nofun, nofun⟩
    · have value : (draft.begin c).value = [] := value_close unnamed
      refine ⟨done_close done name complete, ?_, nofun, fun _ => List.cons_ne_nil _ _,
        fun _ => value, fun _ => ?_, nofun, nofun⟩
      · exact fun member => nameChar_ne_return other (List.mem_singleton.mp member).symm
      · rw [value]
        decide

theorem Clear.addName (clear : Clear place draft (c :: text)) (before : draft.value = [])
    (other : c ≠ '\r') : Clear .inName (draft.addName c) text where
  done := clear.done
  name member := (List.mem_cons.mp member).elim (fun same => nameChar_ne_return other same.symm)
    clear.name
  unnamed := nofun
  named _ := List.cons_ne_nil _ _
  empty _ := before
  complete _ := by
    rw [TagDraft.addName, before]
    decide
  inside := nofun
  quoted := nofun

theorem Clear.addValue (clear : Clear place draft (c :: text)) {next : TagPlace}
    (named : draft.name ≠ []) (inside : next.inValue = true)
    (quoted : ∀ quote, next = .quoted quote → place = .quoted quote)
    (value : Unreturning (draft.value.reverse ++ (c :: text).map withoutNull)) :
    Clear next (draft.addValue c) text where
  done := clear.done
  name := clear.name
  unnamed none := absurd none named
  named _ := named
  empty early := by cases next <;> cases inside <;> cases early
  complete outside := by simp [inside] at outside
  inside _ := by
    rw [TagDraft.addValue, List.reverse_cons, List.append_assoc]
    exact value
  quoted quote same := clear.quoted quote (quoted quote same)

/-- The same draft at another place, which no value is read at. -/
theorem Clear.move (clear : Clear place draft text) {next : TagPlace} {rest : List Char}
    (outside : next.inValue = false) (early : next.beforeAnyValue = true →
      place.beforeAnyValue = true) (complete : '\r' ∉ decodeValue draft.value.reverse) :
    Clear next draft rest where
  done := clear.done
  name := clear.name
  unnamed := clear.unnamed
  named behind := clear.named (by
    rw [outside, Bool.or_false] at behind
    rw [early behind, Bool.true_or])
  empty before := clear.empty (early before)
  complete _ := complete
  inside within := by simp [outside] at within
  quoted quote same := by
    subst same
    cases outside

theorem ends_of_isTagBlank (blank : isTagBlank c = true) :
    hexDigit? c = none ∧ digit? c = none := by
  have ends : ∀ c, c = ' ' ∨ c = '\t' ∨ c = '\n' ∨ c = '\x0c' →
      hexDigit? c = none ∧ digit? c = none := by
    rintro c (rfl | rfl | rfl | rfl) <;> decide
  simp only [isTagBlank, Bool.or_eq_true, beq_iff_eq, or_assoc] at blank
  exact ends c blank

theorem Clear.step (clear : Clear place draft (c :: text)) (plain : Unreturning (c :: text)) :
    Clear (tagStep place draft c).1 (tagStep place draft c).2 text := by
  have other : c ≠ '\r' := fun same => plain.plain (same ▸ List.mem_cons_self)
  have opened : place.inValue = false →
      Clear (openName draft c).1 (openName draft c).2 text := fun outside =>
    clear_openName clear.done clear.name clear.unnamed (clear.complete outside) other
  have moved : ∀ {next : TagPlace}, next.inValue = false → place.inValue = false →
      (next.beforeAnyValue = true → place.beforeAnyValue = true) → Clear next draft text :=
    fun next outside early => clear.move next early (clear.complete outside)
  have impossible : ∀ {holds : Prop}, false = true → holds := by
    rintro holds ⟨⟩
  cases place with
  | beforeName => exact opened rfl
  | inName =>
      simp only [tagStep]
      split_ifs
      · exact moved rfl rfl fun _ => rfl
      · exact moved rfl rfl impossible
      · exact moved rfl rfl fun _ => rfl
      · exact clear.addName (clear.empty rfl) other
  | afterName =>
      simp only [tagStep]
      split_ifs with blank slash equals
      · exact moved rfl rfl fun _ => rfl
      · exact moved rfl rfl impossible
      · exact moved rfl rfl fun _ => rfl
      · have begun := opened rfl
        rwa [openName, if_neg blank, if_neg slash] at begun
  | beforeValue =>
      have fresh : Unreturning (draft.value.reverse ++ (c :: text).map withoutNull) := by
        rw [clear.empty rfl]
        exact plain.map_withoutNull
      have inside : Unreturning (draft.value.reverse ++ text.map withoutNull) := by
        rw [clear.empty rfl]
        exact plain.tail.map_withoutNull
      simp only [tagStep]
      split_ifs
      · exact moved rfl rfl fun _ => rfl
      · next opening =>
          have marks : hexDigit? c = none ∧ digit? c = none := by
            rcases Bool.or_eq_true _ _ ▸ opening with double | single
            · rw [of_decide_eq_true double]
              decide
            · rw [of_decide_eq_true single]
              decide
          refine ⟨clear.done, clear.name, clear.unnamed, fun _ => clear.named rfl, impossible,
            by rintro ⟨⟩, fun _ => inside, ?_⟩
          rintro quote ⟨⟩
          exact marks
      · exact clear.addValue (clear.named rfl) rfl (by rintro quote ⟨⟩) fresh
  | quoted quote =>
      simp only [tagStep]
      split_ifs with closing
      · exact clear.move rfl impossible (clear.complete_at (closing ▸ clear.quoted quote rfl))
      · exact clear.addValue (clear.named rfl) rfl (fun _ => id) (clear.inside rfl)
  | unquoted =>
      simp only [tagStep]
      split_ifs with blank
      · exact clear.move rfl impossible (clear.complete_at (ends_of_isTagBlank blank))
      · exact clear.addValue (clear.named rfl) rfl (by rintro quote ⟨⟩) (clear.inside rfl)
  | afterQuoted => exact opened rfl
  | slash => exact opened rfl

end TagDraft

theorem returnless_attributes {draft : TagDraft}
    (done : ∀ item ∈ draft.close.done, Returnless item.1 ∧ Returnless item.2) :
    ∀ item ∈ draft.attributes, Returnless item.1 ∧ Returnless item.2 := fun item member =>
  done item (List.mem_reverse.mp member)

theorem readTag_clear {name : String} {place : TagPlace} {draft : TagDraft} {text rest : List Char}
    {tag : Tag} (clear : draft.Clear place text) (plain : Unreturning text)
    (read : readTag name place draft text = some (tag, rest)) :
    tag.name = name ∧ (∀ item ∈ tag.attributes, Returnless item.1 ∧ Returnless item.2) ∧
      Unreturning rest := by
  induction text generalizing place draft with
  | nil => cases read
  | cons c text ih =>
      rw [readTag] at read
      split at read
      · next closing =>
          cases read
          have sign : c = '>' := of_decide_eq_true (Bool.and_eq_true_iff.mp closing).1
          have complete := clear.complete_at (sign ▸ by decide)
          exact ⟨rfl, returnless_attributes (TagDraft.done_close clear.done clear.name complete),
            plain.tail⟩
      · exact ih (clear.step plain) plain.tail read

theorem readNamedTag_clear {text rest : List Char} {tag : Tag} (plain : Unreturning text)
    (read : readNamedTag text = some (tag, rest)) : tag.Returnless ∧ Unreturning rest := by
  obtain ⟨named, attributes, behind⟩ :=
    readTag_clear (TagDraft.clear_empty _) (plain.drop _) read
  refine ⟨⟨?_, attributes⟩, behind⟩
  rw [named, returnless_ofList]
  exact return_not_mem_map (fun _ => nameChar_ne_return) fun member =>
    plain.plain ((List.takeWhile_sublist _).mem member)

/-! ## Tokens -/

theorem unfinishedComment_subset (text : List Char) : unfinishedComment text ⊆ text := by
  have kept : ∀ {content : List Char}, content <:+ text.reverse → content.reverse ⊆ text := by
    intro content behind c member
    exact List.mem_reverse.mp (behind.mem (List.mem_reverse.mp member))
  unfold unfinishedComment
  split
  · next same => exact kept ⟨['!', '-', '-'], same.symm⟩
  · next same => exact kept ⟨['-', '-'], same.symm⟩
  · next same => exact kept ⟨['-'], same.symm⟩
  · exact kept (List.suffix_refl _)

/-- A piece without a carriage return, behind which nothing names one. -/
structure Piece.Clear (piece : Piece) : Prop where
  token : ∀ token ∈ piece.token?, token.Returnless
  rest : Unreturning piece.rest

namespace Unreturning

variable {text : List Char} (plain : Unreturning text)

theorem nil : Unreturning [] := ⟨List.not_mem_nil, rfl⟩

theorem finish : Piece.finish.Clear where
  token := by
    rintro token ⟨⟩
    trivial
  rest := nil

theorem textToken? {content : List Char} (plain : '\r' ∉ content) :
    ∀ token ∈ textToken? content, token.Returnless := by
  cases content with
  | nil => nofun
  | cons c content =>
      intro token read
      rw [Html.textToken?] at read
      split at read
      all_goals
        obtain rfl := Option.some.inj read
        exact returnless_ofList.mpr plain

/-- Text of one character that is written there. -/
theorem sign {reading : Reading} {content : String} (written : Returnless content)
    (plain : Unreturning text) : (⟨some (.text content), reading, text⟩ : Piece).Clear where
  token := by
    rintro token ⟨⟩
    exact written
  rest := plain

include plain

/-- Characters that are read as they are. -/
theorem readRun {c : Char} (stops : Char → Bool) (reading : Reading)
    (first : c ≠ '\r') : (readRun reading stops c text).Clear := by
  have content : '\r' ∉ c :: text.takeWhile fun d =>
      !stops d && isTextBlank d == isTextBlank c := by
    rw [List.mem_cons, not_or]
    exact ⟨first.symm, fun member => plain.plain ((List.takeWhile_sublist _).mem member)⟩
  exact ⟨textToken? content, plain.drop _⟩

theorem commentToken {content : List Char} (inside : content ⊆ text) :
    (commentToken content).Returnless :=
  returnless_ofList.mpr <|
    return_not_mem_map (fun _ => withoutNull_ne_return) fun member => plain.plain (inside member)

theorem readStrayComment : (Piece.of .data (readStrayComment text)).Clear where
  token := by
    rintro token ⟨⟩
    exact plain.commentToken (List.takeWhile_subset _)
  rest := plain.drop _

theorem readComment : (Piece.of .data (readComment text)).Clear := by
  have done : ∀ {content rest : List Char}, content ⊆ text → Unreturning rest →
      (Piece.of .data (Html.commentToken content, rest)).Clear := by
    intro content rest inside behind
    refine ⟨?_, behind⟩
    rintro token ⟨⟩
    exact plain.commentToken inside
  unfold Html.readComment
  split
  · exact done (List.nil_subset _) plain.tail
  · exact done (List.nil_subset _) plain.tail.tail
  · split
    · next content rest split =>
        obtain ⟨ending, rfl⟩ := exists_splitComment split
        refine done (List.subset_append_left _ _) (plain.suffix ?_)
        exact (List.suffix_append _ _).trans (List.suffix_append _ _)
    · exact done (unfinishedComment_subset text) nil

theorem readDoctype : (Piece.of .data (readDoctype text)).Clear where
  token := by
    rintro token ⟨⟩
    trivial
  rest := plain.drop _

theorem tagPiece {wrap : Tag → Token}
    (kept : ∀ tag : Tag, tag.Returnless → (wrap tag).Returnless) :
    (tagPiece wrap (readNamedTag text)).Clear := by
  cases read : readNamedTag text with
  | none => exact finish
  | some found =>
      obtain ⟨tagged, behind⟩ := readNamedTag_clear plain read
      refine ⟨?_, behind⟩
      rintro token ⟨⟩
      exact kept _ tagged

theorem readEndTag : (readEndTag text).Clear := by
  rw [readEndTag_eq]
  exact (plain.drop 1).tagPiece fun _ _ => trivial

theorem readDeclaration (sections : Bool) : (readDeclaration sections text).Clear := by
  unfold Html.readDeclaration
  split
  · next rest opened =>
      exact (plain.suffix ⟨_, (Text.dropStart?_eq_some_iff.mp opened).symm⟩).readComment
  · split
    · next rest keyword =>
        obtain ⟨taken, rfl, -⟩ := dropKeyword?_eq_some_iff.mp keyword
        exact (plain.suffix (List.suffix_append _ _)).readDoctype
    · split
      · next rest marked =>
          split
          · exact ⟨nofun, plain.suffix ⟨_, (Text.dropStart?_eq_some_iff.mp marked).symm⟩⟩
          · exact plain.readStrayComment
      · exact plain.readStrayComment

theorem readMarkup (sections : Bool) : (readMarkup sections text).Clear := by
  have opening : Returnless "<" := by decide
  have closing : Returnless "</" := by decide
  cases text with
  | nil => exact sign opening nil
  | cons c text =>
      by_cases declaration : c = '!'
      · subst declaration
        exact plain.tail.readDeclaration sections
      by_cases instruction : c = '?'
      · subst instruction
        exact plain.readStrayComment
      by_cases slash : c = '/'
      · subst slash
        cases text with
        | nil => exact sign closing nil
        | cons d text =>
            by_cases ended : d = '>'
            · subst ended
              exact ⟨nofun, plain.tail.tail⟩
            rw [readMarkup_slash_of_other sections _ ended]
            split
            · exact plain.tail.tagPiece fun _ _ => trivial
            · exact plain.tail.readStrayComment
      rw [readMarkup_of_other sections _ declaration instruction slash]
      split
      · exact plain.tagPiece fun _ tagged => tagged
      · exact sign opening plain

omit plain in
theorem readAmpersand (reading : Reading) (whole : Unreturning ('&' :: text)) :
    (readAmpersand reading text).Clear := by
  unfold Html.readAmpersand
  split
  · next value rest read =>
      obtain ⟨meant, behind⟩ := whole.readReference read
      split
      · refine ⟨nofun, ⟨?_, behind.unnamed⟩⟩
        rw [List.mem_cons, not_or]
        exact ⟨by decide, behind.plain⟩
      · exact ⟨textToken? meant, behind⟩
  · exact sign (by decide) whole.tail

theorem readData (sections : Bool) : (readData sections text).Clear := by
  unfold Html.readData
  split
  · exact finish
  · exact plain.tail.readMarkup sections
  · exact plain.readAmpersand .data
  · refine ⟨?_, plain.tail⟩
    rintro token ⟨⟩
    trivial
  · exact plain.tail.readRun _ _ plain.head_ne

theorem readSign (reading : Reading) (name : String) :
    Piece.Clear (if startsWithName name text then Html.readEndTag text
      else ⟨some (.text "<"), reading, text⟩) := by
  split
  · exact plain.readEndTag
  · exact sign (by decide) plain

theorem replaced (reading : Reading) : (replaced reading text).Clear := sign (by decide) plain

theorem readEscapable (name : String) : (readEscapable name text).Clear := by
  unfold Html.readEscapable
  split
  · exact finish
  · exact plain.tail.readSign _ _
  · exact plain.readAmpersand _
  · exact plain.tail.replaced _
  · exact plain.tail.readRun _ _ plain.head_ne

theorem readRaw (name : String) : (readRaw name text).Clear := by
  unfold Html.readRaw
  split
  · exact finish
  · exact plain.tail.readSign _ _
  · exact plain.tail.replaced _
  · exact plain.tail.readRun _ _ plain.head_ne

theorem readScript : (readScript text).Clear := by
  have whole := splitScript_append 0 .plain text
  unfold Html.readScript
  split
  · exact finish
  · next split =>
      rw [split] at whole
      exact (plain.suffix ⟨_, whole⟩).tail.readEndTag
  · next content rest _ _ split =>
      rw [split] at whole
      refine sign (returnless_ofList.mpr ?_) (plain.suffix ⟨content, whole⟩)
      refine return_not_mem_map (fun _ => withoutNull_ne_return) fun member => plain.plain ?_
      exact whole ▸ List.mem_append_left _ member

theorem readSection : (readSection text).Clear := by
  unfold Html.readSection
  split
  · exact finish
  · exact ⟨nofun, plain.tail.tail.tail⟩
  · refine ⟨?_, plain.tail⟩
    rintro token ⟨⟩
    trivial
  · exact plain.tail.readRun _ _ plain.head_ne

theorem readPlain : (readPlain text).Clear := by
  unfold Html.readPlain
  split
  · exact finish
  · exact sign (returnless_ofList.mpr
      (return_not_mem_map (fun _ => withoutNull_ne_return) plain.plain)) nil

theorem next (reading : Reading) (sections : Bool) : (reading.next sections text).Clear := by
  cases reading with
  | data => exact plain.readData sections
  | escapable name => exact plain.readEscapable name
  | raw name => exact plain.readRaw name
  | script => exact plain.readScript
  | «section» => exact plain.readSection
  | plain => exact plain.readPlain

end Unreturning

/-! ## Documents -/

/-- As long as no reference names a carriage return, no node has one. -/
theorem State.Returnless.readWithin {state : State} (start : state.Returnless) (bound : Nat)
    {text : List Char} (plain : Unreturning text) :
    (State.readWithin bound state text).Returnless := by
  induction bound generalizing state text with
  | zero => exact start
  | succ bound ih =>
      obtain ⟨tokens, behind⟩ := plain.next state.reading state.allowsSections
      have going : ({ state with
          reading := (state.reading.next state.allowsSections text).reading } : State).Returnless :=
        start
      rw [State.readWithin]
      dsimp only
      split
      · have skipped : ({ state with
            reading := (state.reading.next state.allowsSections text).reading
            skipsNewline := false } : State).Returnless := start
        exact ih skipped behind
      · exact going.take trivial
      · next token _ read => exact ih (going.take (tokens token read)) behind

theorem unreturning_documentText {html : String}
    (unnamed : namesReturn (documentText html) = false) :
    Unreturning (documentText html) :=
  ⟨Snippet.carriageReturn_not_mem_lineFeeds _, unnamed⟩

theorem returnless_parseDocument {html : String}
    (unnamed : namesReturn (documentText html) = false) : (parseDocument html).Returnless :=
  (State.returnless_start.readWithin _ (unreturning_documentText unnamed)).nodes

/-! ## Markup -/

/-- However the node is written, there is no carriage return in its markup. -/
def Tree.Returnless (node : Node) : Prop := ∀ around, Html.Returnless (node.write around)

theorem returnless_escapeText {text : String} (plain : Returnless text) :
    Returnless (escapeText text) :=
  returnless_ofList.mpr (Snippet.carriageReturn_not_mem_written escapes_text plain)

theorem returnless_escapeValue {value : String} (plain : Returnless value) :
    Returnless (escapeValue value) :=
  returnless_ofList.mpr (Snippet.carriageReturn_not_mem_written escapes_value plain)

theorem Attribute.returnless_write {item : Attribute} (name : Returnless item.name)
    (value : Returnless item.value) : Returnless item.write := by
  have signs : Returnless " " ∧ Returnless "=\"" ∧ Returnless "\"" ∧ Returnless "xlink:" ∧
      Returnless "xml:" ∧ Returnless "xmlns" ∧ Returnless "xmlns:" := by decide
  obtain ⟨blank, opening, closing, xlink, xml, xmlns, prefixed⟩ := signs
  have written : Returnless item.writtenName := by
    unfold writtenName
    split
    · exact name
    · exact xlink.append name
    · exact xml.append name
    · exact iteInduction (fun _ => xmlns) fun _ => prefixed.append name
  exact (((blank.append written).append opening).append (returnless_escapeValue value)).append
    closing

theorem returnless_join {texts : List String} (plain : ∀ text ∈ texts, Returnless text) :
    Returnless (String.join texts) := by
  rw [Returnless, String.toList_join, List.mem_flatMap]
  rintro ⟨text, listed, member⟩
  exact plain text listed member

theorem Element.Returnless.startTag {tag : Element} (plain : tag.Returnless) :
    Html.Returnless tag.startTag := by
  have signs : Html.Returnless "<" ∧ Html.Returnless ">" := by decide
  refine ((signs.1.append plain.name).append (returnless_join ?_)).append signs.2
  intro text member
  obtain ⟨item, listed, rfl⟩ := List.mem_map.mp member
  exact Attribute.returnless_write (plain.attributes item listed).1 (plain.attributes item listed).2

theorem Element.Returnless.endTag {tag : Element} (plain : tag.Returnless) :
    Html.Returnless tag.endTag := by
  have signs : Html.Returnless "</" ∧ Html.Returnless ">" := by decide
  exact (signs.1.append plain.name).append signs.2

theorem returnless_writeAll {nodes : List Node} (plain : ∀ node ∈ nodes, node.Returnless)
    (around : Surroundings) : Returnless (Tree.writeAll around nodes) := by
  induction nodes with
  | nil => exact List.not_mem_nil
  | cons node nodes ih =>
      obtain ⟨first, others⟩ := List.forall_mem_cons.mp plain
      exact (first around).append (ih others)

theorem Tree.returnless_element {tag : Element} {children : List Node} (plain : tag.Returnless)
    (inside : ∀ child ∈ children, child.Returnless) :
    Tree.Returnless (.element tag children) := by
  intro around
  have content := returnless_writeAll inside ⟨tag.isVerbatim, around.void || tag.isVoid⟩
  rw [Tree.write]
  split_ifs
  · exact content
  · exact plain.startTag.append content
  · exact (plain.startTag.append content).append plain.endTag

theorem Arena.Returnless.treeWithin {arena : Arena} (plain : arena.Returnless) {depth node : Nat}
    {tree : Node} (found : arena.treeWithin depth node = some tree) :
    tree.Returnless ∧ ∀ child ∈ tree.children, child.Returnless := by
  have signs : Html.Returnless "<!--" ∧ Html.Returnless "-->" := by decide
  induction depth generalizing node tree with
  | zero => cases found
  | succ depth ih =>
      rw [Arena.treeWithin] at found
      split at found
      · next stands =>
          cases found
          have own : Content.Returnless (.element _) := plain _ (Array.mem_of_getElem? stands)
          have inside : ∀ {nodes : List Nat} {child : Node},
              child ∈ nodes.filterMap (arena.treeWithin depth) → child.Returnless := by
            intro nodes child member
            obtain ⟨other, -, below⟩ := List.mem_filterMap.mp member
            exact (ih below).1
          exact ⟨Tree.returnless_element own fun _ => inside, fun _ => inside⟩
      · next stands =>
          cases found
          have own : Content.Returnless (.text _) := plain _ (Array.mem_of_getElem? stands)
          refine ⟨fun around => ?_, by rintro child ⟨⟩⟩
          rw [Tree.write]
          split
          · exact own
          · exact returnless_escapeText own
      · next stands =>
          cases found
          have own : Content.Returnless (.comment _) := plain _ (Array.mem_of_getElem? stands)
          exact ⟨fun around => (signs.1.append own).append signs.2, by rintro child ⟨⟩⟩
      · cases found

/-- The body of a document in which no reference names a carriage return is written without one. -/
theorem returnless_parseBody? {html : String} {body : Node} (parsed : parseBody? html = some body)
    (unnamed : namesReturn (documentText html) = false) :
    ∀ child ∈ body.children, child.Returnless := by
  have nodes := returnless_parseDocument unnamed
  obtain ⟨found, read, tree⟩ := Option.bind_eq_some_iff.mp parsed
  obtain ⟨node, -, rfl⟩ := Option.map_eq_some_iff.mp read
  exact (nodes.treeWithin tree).2

end Bindery.Html
