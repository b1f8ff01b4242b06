import Bindery.Proofs.Footnote.Recognition
import Bindery.Proofs.Textile.BlockForm

/-!
# The stand-ins in a text

A text is searched for stand-ins from the left, and none of them begins within
another one. What a text carries are its stand-ins and the characters that no rule
looks for. Signs that are written or taken away between them change nothing of it.
-/

set_option autoImplicit false

namespace Bindery.Textile

section

variable {index : Nat} {text : List Char}

theorem isDigit_of_mem_toString {c : Char} (member : c ∈ (toString index).toList) :
    c.isDigit = true := by
  rw [Nat.toString_eq_repr, Nat.toList_repr] at member
  exact Nat.isDigit_of_mem_toDigits (by decide) (by decide) member

theorem isDecimalDigit_of_isDigit {c : Char} (digit : c.isDigit = true) :
    Text.isDecimalDigit c = true := by
  have bounds : 48 ≤ c.toNat ∧ c.toNat ≤ 57 := by
    simpa [Char.isDigit, UInt32.le_iff_toNat_le] using digit
  have zero : 48 ∈ Text.digitZeros := by decide
  rw [Text.isDecimalDigit, List.any_eq_true]
  exact ⟨48, zero, by simpa using bounds⟩

theorem ne_of_mem_standIn {c sign : Char} (member : c ∈ standIn index)
    (other : sign ≠ opener ∧ sign ≠ closer ∧ sign.isDigit = false) : c ≠ sign := by
  rintro rfl
  rw [standIn, List.cons_append, List.mem_cons, List.mem_append, List.mem_singleton] at member
  rcases member with same | member | same
  · exact other.1 same
  · rw [isDigit_of_mem_toString member] at other
    cases other.2.2
  · exact other.2.1 same

theorem not_mem_standIn {sign : Char}
    (other : sign ≠ opener ∧ sign ≠ closer ∧ sign.isDigit = false) : sign ∉ standIn index :=
  fun member => ne_of_mem_standIn member other rfl

theorem isDecimalDigit_opener : Text.isDecimalDigit opener = false := by decide

theorem isDecimalDigit_closer : Text.isDecimalDigit closer = false := by decide

theorem standInDigits?_standing {digits : List Char}
    (decimal : ∀ digit ∈ digits, Text.isDecimalDigit digit = true) (some : digits ≠ [])
    (rest : List Char) :
    standInDigits? (opener :: (digits ++ closer :: rest)) = .some digits := by
  have taken : (digits ++ closer :: rest).takeWhile Text.isDecimalDigit = digits := by
    rw [List.takeWhile_append_of_pos decimal, List.takeWhile_cons_of_neg (by
      simp [isDecimalDigit_closer]), List.append_nil]
  rw [standInDigits?, if_pos rfl, taken]
  dsimp only
  rw [List.drop_left]
  simp [some]

theorem standInDigits?_standIn (index : Nat) (rest : List Char) :
    standInDigits? (standIn index ++ rest) = some (toString index).toList := by
  have decimal : ∀ c ∈ (toString index).toList, Text.isDecimalDigit c = true :=
    fun c member => isDecimalDigit_of_isDigit (isDigit_of_mem_toString member)
  have nonempty : (toString index).toList ≠ [] := by
    rw [Nat.toString_eq_repr, Nat.toList_repr]
    exact Nat.toDigits_ne_nil
  rw [standIn, List.cons_append, List.cons_append, List.append_assoc, List.singleton_append]
  exact standInDigits?_standing decimal nonempty rest

theorem index?_toString (small : index < UInt64.size) :
    index? (toString index).toList = some index := by
  have digits : (toString index).toList.all Char.isDigit = true :=
    List.all_eq_true.mpr fun c member => isDigit_of_mem_toString member
  have value : Footnote.Marker.decimalValue (toString index).toList = index := by
    rw [Nat.toString_eq_repr, Nat.toList_repr, Footnote.Marker.decimalValue_toDigits]
  rw [index?, if_pos digits]
  change (if Footnote.Marker.decimalValue (toString index).toList < UInt64.size then
    some (Footnote.Marker.decimalValue (toString index).toList) else none) = some index
  rw [value, if_pos small]

end

/-! ## Stand-ins in a text -/

/-- The digits of the stand-ins in a text, in their order. -/
def standIns : List Char → List (List Char)
  | [] => []
  | c :: rest => (standInDigits? (c :: rest)).toList ++ standIns rest

/-- A character beyond ASCII that is neither a blank nor a digit. No rule takes or writes one of
its own accord. -/
def isPassive (c : Char) : Bool :=
  128 ≤ c.toNat && !Text.isBlank c && !Text.isDecimalDigit c

/-- The text has nothing to carry, and a stand-in that comes before it has ended. -/
structure IsSign (text : List Char) : Prop where
  active : ∀ c ∈ text, isPassive c = false
  ends : text.head?.any endsStandIn = true

/-- A text carries the same stand-ins as another one, in any order, and each passive character as
often. -/
structure Carries (text other : List Char) : Prop where
  standIns : (standIns text).Perm (standIns other)
  count : ∀ c, isPassive c = true → text.count c = other.count c

section

variable {text other before after sign : List Char}

theorem isPassive_opener : isPassive opener = true := by decide

theorem isPassive_closer : isPassive closer = true := by decide

theorem endsStandIn_of_active {c : Char} (active : isPassive c = false)
    (other : Text.isDecimalDigit c = false) : endsStandIn c = true := by
  have notCloser : c ≠ closer := by
    intro same
    rw [same, isPassive_closer] at active
    cases active
  simp [endsStandIn, other, notCloser]

theorem opener_not_mem_of_active (active : ∀ c ∈ text, isPassive c = false) : opener ∉ text := by
  intro member
  have passive := active opener member
  rw [isPassive_opener] at passive
  cases passive

theorem count_of_active {c : Char} (active : ∀ c ∈ text, isPassive c = false)
    (passive : isPassive c = true) : text.count c = 0 := by
  rw [List.count_eq_zero]
  intro member
  rw [active c member] at passive
  cases passive

theorem standIns_append (ends : after.head?.all endsStandIn = true) :
    standIns (text ++ after) = standIns text ++ standIns after := by
  induction text with
  | nil => rfl
  | cons c rest ih =>
      have same : standInDigits? (c :: (rest ++ after)) = standInDigits? (c :: rest) := by
        cases after with
        | nil => rw [List.append_nil]
        | cons d after => exact standInDigits?_append (by simpa using ends) (List.cons_ne_nil c rest)
      rw [List.cons_append, standIns, standIns, same, ih, List.append_assoc]

theorem standInDigits?_eq_none {c : Char} {rest : List Char} (absent : c ≠ opener) :
    standInDigits? (c :: rest) = none := by
  rw [standInDigits?, if_neg absent]

theorem standIns_append_of_not_mem (absent : opener ∉ text) :
    standIns (text ++ after) = standIns after := by
  induction text with
  | nil => rfl
  | cons c rest ih =>
      rw [List.mem_cons, not_or] at absent
      rw [List.cons_append, standIns, standInDigits?_eq_none (Ne.symm absent.1), ih absent.2]
      rfl

theorem standIns_of_not_mem (absent : opener ∉ text) : standIns text = [] := by
  have alone : standIns (text ++ []) = standIns [] := standIns_append_of_not_mem absent
  rwa [List.append_nil] at alone

theorem head?_append_ends (ends : text.head?.any endsStandIn = true) (after : List Char) :
    (text ++ after).head?.any endsStandIn = true := by
  cases text with
  | nil => simp at ends
  | cons c text => exact ends

theorem all_of_ends (ends : text.head?.any endsStandIn = true) :
    text.head?.all endsStandIn = true := by
  cases text with
  | nil => rfl
  | cons c text => exact ends

theorem IsSign.standIns_append (signed : IsSign sign) :
    standIns (before ++ (sign ++ after)) = standIns before ++ standIns after := by
  rw [Textile.standIns_append (all_of_ends (head?_append_ends signed.ends after)),
    standIns_append_of_not_mem (opener_not_mem_of_active signed.active)]

theorem IsSign.append (signed : IsSign sign) (active : ∀ c ∈ text, isPassive c = false) :
    IsSign (sign ++ text) where
  active c member := (List.mem_append.mp member).elim (signed.active c) (active c)
  ends := head?_append_ends signed.ends text

/-- A text is empty, or it begins with a character outside stand-ins or with a stand-in. -/
theorem standIns_induction {motive : List Char → Prop} (nil : motive [])
    (plain : ∀ c rest, standInDigits? (c :: rest) = none → motive rest → motive (c :: rest))
    (standing : ∀ digits rest, standInDigits? (opener :: (digits ++ closer :: rest)) = some digits →
      opener ∉ digits ++ [closer] → motive rest → motive (opener :: (digits ++ closer :: rest)))
    (text : List Char) : motive text := by
  induction length : text.length using Nat.strong_induction_on generalizing text with
  | _ length ih =>
      subst length
      cases text with
      | nil => exact nil
      | cons c rest =>
          cases read : standInDigits? (c :: rest) with
          | none => exact plain c rest read (ih _ (Nat.lt_succ_self _) rest rfl)
          | some digits =>
              obtain ⟨decimal, behind, whole⟩ := eq_append_of_standInDigits? read
              have number := Footnote.not_mem_of_decimal isDecimalDigit_opener decimal
              have absent := List.not_mem_append number (by decide : opener ∉ [closer])
              rw [whole] at read ⊢
              refine standing digits behind read absent (ih _ ?_ behind rfl)
              rw [whole, List.length_cons, List.length_append, List.length_cons]
              omega

theorem standIns_standing {digits rest : List Char}
    (read : standInDigits? (opener :: (digits ++ closer :: rest)) = some digits)
    (absent : opener ∉ digits ++ [closer]) :
    standIns (opener :: (digits ++ closer :: rest)) = digits :: standIns rest := by
  have behind : digits ++ closer :: rest = digits ++ [closer] ++ rest := by
    rw [List.append_assoc, List.singleton_append]
  rw [standIns, read, behind, standIns_append_of_not_mem absent]
  rfl

theorem head?_standIn_append (index : Nat) (rest : List Char) :
    (standIn index ++ rest).head?.any endsStandIn = true := by
  have opens : endsStandIn opener = true := by decide
  exact opens

theorem standIns_standIn_append (index : Nat) (rest : List Char) :
    standIns (standIn index ++ rest) = (toString index).toList :: standIns rest := by
  have read := standInDigits?_standIn index rest
  have absent : opener ∉ (toString index).toList ++ [closer] := by
    intro member
    rcases List.mem_append.mp member with digit | last
    · exact absurd (isDigit_of_mem_toString digit) (by decide)
    · exact absurd (List.mem_singleton.mp last) (by decide)
  have whole : standIn index ++ rest = opener :: ((toString index).toList ++ closer :: rest) := by
    rw [standIn, List.cons_append, List.cons_append, List.append_assoc, List.singleton_append]
  rw [whole] at read ⊢
  exact standIns_standing read absent

/-! ## What a text carries -/

theorem Carries.refl (text : List Char) : Carries text text :=
  ⟨.refl _, fun _ _ => rfl⟩

theorem Carries.trans {last : List Char} (first : Carries text other) (second : Carries other last) :
    Carries text last :=
  ⟨first.standIns.trans second.standIns, fun c passive =>
    (first.count c passive).trans (second.count c passive)⟩

/-- The one text may be written in the place of the other. -/
def StandsFor (text other : List Char) : Prop :=
  ∀ before after, Carries (before ++ (text ++ after)) (before ++ (other ++ after))

/-- The one text may be written in the place of the other where no stand-in goes on behind it. -/
def EndsAs (text other : List Char) : Prop :=
  ∀ before after, after.head?.all endsStandIn = true →
    Carries (before ++ (text ++ after)) (before ++ (other ++ after))

theorem StandsFor.refl (text : List Char) : StandsFor text text :=
  fun _ _ => .refl _

theorem StandsFor.trans {last : List Char} (first : StandsFor text other)
    (second : StandsFor other last) : StandsFor text last :=
  fun before after => (first before after).trans (second before after)

theorem StandsFor.append {more behind : List Char} (first : StandsFor text other)
    (second : StandsFor more behind) : StandsFor (text ++ more) (other ++ behind) := by
  intro before after
  have front := first before (more ++ after)
  have back := second (before ++ other) after
  rw [List.append_assoc, List.append_assoc] at back
  rw [List.append_assoc, List.append_assoc]
  exact front.trans back

theorem IsSign.standsFor {new : List Char} (written : IsSign new) (taken : IsSign sign) :
    StandsFor new sign := by
  intro before after
  constructor
  · rw [written.standIns_append, taken.standIns_append]
  · intro c passive
    simp only [List.count_append, count_of_active written.active passive,
      count_of_active taken.active passive]

theorem StandsFor.endsAs (same : StandsFor text other) : EndsAs text other :=
  fun before after _ => same before after

theorem EndsAs.trans {last : List Char} (first : EndsAs text other) (second : EndsAs other last) :
    EndsAs text last :=
  fun before after ends => (first before after ends).trans (second before after ends)

/-- What begins with a sign ends what stands before it. -/
theorem EndsAs.append {more behind : List Char} (same : EndsAs text other)
    (ends : more.head?.any endsStandIn = true) (later : StandsFor more behind) :
    StandsFor (text ++ more) (other ++ behind) := by
  have front : StandsFor (text ++ more) (other ++ more) := by
    intro before after
    rw [List.append_assoc, List.append_assoc]
    exact same before (more ++ after) (all_of_ends (head?_append_ends ends after))
  exact front.trans ((StandsFor.refl other).append later)

theorem standsFor_flatMap {α : Type} {items : List α} {write take : α → List Char}
    (each : ∀ item ∈ items, StandsFor (write item) (take item)) :
    StandsFor (items.flatMap write) (items.flatMap take) := by
  induction items with
  | nil => exact .refl []
  | cons item items ih =>
      rw [List.flatMap_cons, List.flatMap_cons]
      exact (each item List.mem_cons_self).append
        (ih fun other member => each other (List.mem_cons_of_mem item member))

theorem StandsFor.carries (same : StandsFor text other) : Carries text other := by
  have alone := same [] []
  rwa [List.nil_append, List.nil_append, List.append_nil, List.append_nil] at alone

end

end Bindery.Textile
