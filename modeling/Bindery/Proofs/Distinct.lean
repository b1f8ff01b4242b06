import Mathlib.Data.List.Basic

/-!
# Lists without repetitions

Taking repeated members out of a list keeps the first of each, in its order.
-/

set_option autoImplicit false

namespace Bindery.Distinct

variable {α β : Type}

/-- Renaming the members without joining any commutes with taking out repetitions. -/
theorem eraseDups_map [BEq α] [LawfulBEq α] [BEq β] [LawfulBEq β] (rename : α → β)
    (members : List α)
    (injective : ∀ left ∈ members, ∀ right ∈ members, rename left = rename right → left = right) :
    (members.map rename).eraseDups = members.eraseDups.map rename := by
  match members with
  | [] => rfl
  | first :: rest =>
      have kept : (rest.map rename).filter (fun other => !other == rename first) =
          (rest.filter fun other => !other == first).map rename := by
        rw [List.filter_map]
        congr 1
        refine List.filter_congr fun other member => ?_
        have same : rename other = rename first ↔ other = first :=
          ⟨injective other (List.mem_cons_of_mem _ member) first List.mem_cons_self,
            fun equal => congrArg rename equal⟩
        rw [Function.comp_apply, Bool.eq_iff_iff]
        simp [same]
      rw [List.map_cons, List.eraseDups_cons, List.eraseDups_cons, kept, List.map_cons,
        eraseDups_map rename (rest.filter fun other => !other == first)]
      intro left leftMember right rightMember
      exact injective left (List.mem_cons_of_mem _ (List.mem_filter.mp leftMember).1)
        right (List.mem_cons_of_mem _ (List.mem_filter.mp rightMember).1)
termination_by members.length
decreasing_by exact Nat.lt_succ_of_le (List.length_filter_le _ _)

/-- What is read off sorted items is listed in the order in which it is read first. -/
theorem eraseDups_filterMap_ordered [BEq β] [LawfulBEq β] {before : α → α → Prop}
    (read : α → Option β) (items : List α) (sorted : items.Pairwise before) :
    (items.filterMap read).eraseDups.Pairwise fun left right =>
      ∃ item ∈ items, read item = some left ∧
        ∀ other ∈ items, read other = some right → before item other := by
  induction items generalizing read with
  | nil => exact List.Pairwise.nil
  | cons first rest ih =>
      obtain ⟨firstBefore, sorted⟩ := List.pairwise_cons.mp sorted
      cases result : read first with
      | none =>
          rw [List.filterMap_cons_none result]
          refine (ih read sorted).imp ?_
          rintro left right ⟨item, member, found, earlier⟩
          refine ⟨item, List.mem_cons_of_mem _ member, found, ?_⟩
          intro other otherMember otherFound
          rcases List.mem_cons.mp otherMember with rfl | otherMember
          · rw [result] at otherFound
            cases otherFound
          · exact earlier other otherMember otherFound
      | some value =>
          have different : ∀ {other : β}, other ∈ ((rest.filterMap read).filter
              fun other => !other == value).eraseDups → other ≠ value := by
            intro other member
            simpa using (List.mem_filter.mp (List.mem_eraseDups.mp member)).2
          rw [List.filterMap_cons_some result, List.eraseDups_cons, List.pairwise_cons]
          constructor
          · intro right member
            refine ⟨first, List.mem_cons_self, result, ?_⟩
            intro other otherMember otherFound
            rcases List.mem_cons.mp otherMember with rfl | otherMember
            · exact absurd (Option.some.inj (otherFound.symm.trans result)) (different member)
            · exact firstBefore other otherMember
          · -- The rest is what is read when the first value is not read any more.
            have restricted := ih (fun item => (read item).filter fun other => !other == value)
              sorted
            rw [← List.filter_filterMap] at restricted
            refine restricted.imp_of_mem ?_
            rintro left right leftMember rightMember ⟨item, member, found, earlier⟩
            have accepted := Option.filter_eq_some_iff.mp found
            refine ⟨item, List.mem_cons_of_mem _ member, accepted.1, ?_⟩
            intro other otherMember otherFound
            rcases List.mem_cons.mp otherMember with rfl | otherMember
            · exact absurd (Option.some.inj (otherFound.symm.trans result))
                (different rightMember)
            · refine earlier other otherMember (Option.filter_eq_some_iff.mpr ⟨otherFound, ?_⟩)
              simpa using different rightMember

theorem lookup_zipIdx [BEq α] [LawfulBEq α] (members : List α) (start : Nat)
    (wanted : α) : (members.zipIdx start).lookup wanted =
      if wanted ∈ members then some (start + members.idxOf wanted) else none := by
  induction members generalizing start with
  | nil => rfl
  | cons first rest ih =>
      rw [List.zipIdx_cons, List.lookup_cons, ih, List.idxOf_cons]
      by_cases same : wanted = first
      · simp [same]
      · have unequal : (wanted == first) = false := by simpa using same
        have unequal' : (first == wanted) = false := by simpa using Ne.symm same
        by_cases member : wanted ∈ rest
        · have shifted : start + 1 + rest.idxOf wanted = start + (rest.idxOf wanted + 1) := by omega
          simp [unequal, unequal', member, shifted]
        · simp [unequal, same, member]

theorem idxOf_map [BEq α] [LawfulBEq α] [BEq β] [LawfulBEq β] (rename : α → β)
    (members : List α) (wanted : α)
    (injective : ∀ other ∈ members, rename other = rename wanted → other = wanted) :
    (members.map rename).idxOf (rename wanted) = members.idxOf wanted := by
  induction members with
  | nil => rfl
  | cons first rest ih =>
      rw [List.map_cons, List.idxOf_cons, List.idxOf_cons,
        ih fun other member => injective other (List.mem_cons_of_mem _ member)]
      have same : (rename first == rename wanted) = (first == wanted) := by
        rw [Bool.eq_iff_iff, beq_iff_eq, beq_iff_eq]
        exact ⟨injective first List.mem_cons_self, fun equal => congrArg rename equal⟩
      rw [same]

/-- Renaming the members without joining any keeps apart what is different at two positions. -/
theorem getElem?_map_inj (rename : α → β) {members : List α}
    (injective : ∀ left ∈ members, ∀ right ∈ members, rename left = rename right → left = right)
    (index other : Nat) :
    (members.map rename)[index]? = (members.map rename)[other]? ↔
      members[index]? = members[other]? := by
  rw [List.getElem?_map, List.getElem?_map]
  refine ⟨fun same => ?_, congrArg _⟩
  cases here : members[index]? with
  | none =>
      rw [here, Option.map_none, eq_comm, Option.map_eq_none_iff] at same
      exact same.symm
  | some left =>
      rw [here, Option.map_some, eq_comm, Option.map_eq_some_iff] at same
      obtain ⟨right, there, equal⟩ := same
      rw [there, injective right (List.mem_of_getElem? there) left (List.mem_of_getElem? here) equal]

/-- Members that are all different stand at the positions one after the other. -/
theorem map_idxOf_add [BEq α] [LawfulBEq α] {members : List α} (unique : members.Nodup)
    (start : Nat) :
    (members.map fun member => members.idxOf member + start) =
      List.range' start members.length := by
  refine List.ext_getElem (by simp) fun index inside _ => ?_
  rw [List.length_map] at inside
  rw [List.getElem_map, List.getElem_range', unique.idxOf_getElem index inside, Nat.one_mul,
    Nat.add_comm]

end Bindery.Distinct
