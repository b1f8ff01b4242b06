import Mathlib.Data.List.Forall2

/-!
# Computations that may fail

A chain of computations succeeds if each of them does, and so does a list of
computations, one result for each.
-/

set_option autoImplicit false

namespace Bindery

variable {ε α β γ : Type}

theorem bind_eq_ok {first : Except ε α} {next : α → Except ε β} {result : β}
    (done : (first >>= next) = .ok result) :
    ∃ found, first = .ok found ∧ next found = .ok result := by
  cases first with
  | error cause => cases done
  | ok found => exact ⟨found, rfl, done⟩

theorem map_eq_ok {first : Except ε α} {change : α → β} {result : β}
    (done : first.map change = .ok result) :
    ∃ found, first = .ok found ∧ change found = result := by
  cases first with
  | error cause => cases done
  | ok found => exact ⟨found, rfl, Except.ok.inj done⟩

theorem mapM_eq_ok_cons {run : α → Except ε β} {item : α} {items : List α} {results : List β}
    (done : (item :: items).mapM run = .ok results) :
    ∃ first others, run item = .ok first ∧ items.mapM run = .ok others ∧
      results = first :: others := by
  rw [List.mapM_cons] at done
  obtain ⟨first, ran, done⟩ := bind_eq_ok done
  obtain ⟨others, rest, done⟩ := bind_eq_ok done
  cases done
  exact ⟨first, others, ran, rest, rfl⟩

theorem mapM_eq_ok_append {run : α → Except ε β} {items more : List α} {results : List β}
    (done : (items ++ more).mapM run = .ok results) :
    ∃ before after, items.mapM run = .ok before ∧ more.mapM run = .ok after ∧
      results = before ++ after := by
  rw [List.mapM_append] at done
  obtain ⟨before, ran, done⟩ := bind_eq_ok done
  obtain ⟨after, rest, done⟩ := bind_eq_ok done
  cases done
  exact ⟨before, after, ran, rest, rfl⟩

theorem length_of_mapM {run : α → Except ε β} {items : List α} {results : List β}
    (done : items.mapM run = .ok results) : results.length = items.length := by
  induction items generalizing results with
  | nil =>
      cases done
      rfl
  | cons item items ih =>
      obtain ⟨first, others, -, rest, rfl⟩ := mapM_eq_ok_cons done
      rw [List.length_cons, List.length_cons, ih rest]

/-- Results may be changed one by one or all at the end. -/
theorem map_mapM (run : α → Except ε β) (change : β → γ) (items : List α) :
    (items.mapM run).map (List.map change) = items.mapM fun item => (run item).map change := by
  induction items with
  | nil => rfl
  | cons item items ih =>
      rw [List.mapM_cons, List.mapM_cons, ← ih]
      cases run item with
      | error cause => rfl
      | ok result =>
          cases items.mapM run with
          | error cause => rfl
          | ok results => rfl

theorem getElem?_of_mapM {run : α → Except ε β} {items : List α} {results : List β}
    {position : Nat} {item : α} (done : items.mapM run = .ok results)
    (found : items[position]? = some item) :
    ∃ result, run item = .ok result ∧ results[position]? = some result := by
  induction items generalizing results position with
  | nil => cases found
  | cons first items ih =>
      obtain ⟨result, others, ran, rest, rfl⟩ := mapM_eq_ok_cons done
      cases position with
      | zero =>
          cases found
          exact ⟨result, ran, rfl⟩
      | succ position =>
          obtain ⟨later, done, there⟩ := ih rest found
          exact ⟨later, done, there⟩

theorem exists_ok_of_mapM {run : α → Except ε β} {items : List α} {results : List β}
    (done : items.mapM run = .ok results) : ∀ item ∈ items, ∃ result, run item = .ok result := by
  intro item member
  obtain ⟨position, found⟩ := List.getElem?_of_mem member
  obtain ⟨result, ran, -⟩ := getElem?_of_mapM done found
  exact ⟨result, ran⟩

theorem mapM_of_ok {run : α → Except ε β} {result : α → β} {items : List α}
    (all : ∀ item ∈ items, run item = .ok (result item)) :
    items.mapM run = .ok (items.map result) := by
  induction items with
  | nil => rfl
  | cons item items ih =>
      obtain ⟨first, others⟩ := List.forall_mem_cons.mp all
      rw [List.mapM_cons, first, ih others]
      rfl

/-- A list of computations fails like the first of them that does. -/
theorem mapM_eq_error_iff {run : α → Except ε β} {items : List α} {cause : ε} :
    items.mapM run = .error cause ↔
      ∃ before failed after, items = before ++ failed :: after ∧
        (∀ earlier ∈ before, ∃ result, run earlier = .ok result) ∧ run failed = .error cause := by
  constructor
  · intro failing
    induction items with
    | nil => cases failing
    | cons item items ih =>
        rw [List.mapM_cons] at failing
        cases ran : run item with
        | error other =>
            rw [ran] at failing
            cases failing
            exact ⟨[], item, items, rfl, nofun, ran⟩
        | ok result =>
            rw [ran] at failing
            cases rest : items.mapM run with
            | ok results =>
                rw [rest] at failing
                cases failing
            | error other =>
                rw [rest] at failing
                cases failing
                obtain ⟨before, failed, after, rfl, done, fails⟩ := ih rest
                exact ⟨item :: before, failed, after, rfl,
                  List.forall_mem_cons.mpr ⟨⟨result, ran⟩, done⟩, fails⟩
  · rintro ⟨before, failed, after, rfl, done, fails⟩
    induction before with
    | nil =>
        rw [List.nil_append, List.mapM_cons, fails]
        rfl
    | cons item before ih =>
        obtain ⟨⟨result, ran⟩, others⟩ := List.forall_mem_cons.mp done
        rw [List.cons_append, List.mapM_cons, ran, ih others]
        rfl

end Bindery
