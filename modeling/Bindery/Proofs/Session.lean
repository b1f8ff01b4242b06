import Bindery.Proofs.Footnote.Reconcile
import Bindery.Proofs.Outcome
import Bindery.Session

/-!
# What a session draws

The numbers of a session are drawn in order, without gaps and repetitions: one for
each number that is asked for, and one for each note of each document that is
renumbered. A call that fails has drawn none.
-/

set_option autoImplicit false

namespace Bindery

open Footnote

/-- The ledger with the next numbers drawn from it. -/
def Ledger.draw (ledger : Ledger) (count : Nat) : Ledger :=
  ⟨ledger.counter.advance count, ledger.drawn ++ List.range' ledger.counter.next count⟩

theorem Ledger.draw_zero (ledger : Ledger) : ledger.draw 0 = ledger := by
  simp [draw, Counter.advance]

theorem Ledger.draw_draw (ledger : Ledger) (first second : Nat) :
    (ledger.draw first).draw second = ledger.draw (first + second) := by
  simp [draw, Counter.advance, Nat.add_assoc]

namespace Drawing

section

variable {α β : Type} {ledger after : Ledger} {first : Drawing α}

theorem runOn_bind_ok {value : α} (next : α → Drawing β)
    (ran : first.runOn ledger = (.ok value, after)) :
    (first >>= next).runOn ledger = (next value).runOn after :=
  congrArg (fun done : Except BookError α × Ledger =>
    StateT.run (ExceptT.bindCont next done.1 : StateM Ledger _) done.2) ran

theorem runOn_bind_error {error : BookError} (next : α → Drawing β)
    (ran : first.runOn ledger = (.error error, after)) :
    (first >>= next).runOn ledger = (.error error, after) :=
  congrArg (fun done : Except BookError α × Ledger =>
    StateT.run (ExceptT.bindCont next done.1 : StateM Ledger _) done.2) ran

theorem runOn_ofExcept (outcome : Except BookError α) :
    (ofExcept outcome : Drawing α).runOn ledger = (outcome, ledger) := by
  cases outcome <;> rfl

theorem runOn_next : next.runOn ledger = (.ok ledger.counter.next, ledger.draw 1) := rfl

end

/-- The keys that are new behind those that have been seen, each once. -/
def unseen (seen keys : List Key) : List Key := (keys.filter (· ∉ seen)).eraseDups

theorem unseen_cons_of_mem {seen : List Key} {key : Key} (known : key ∈ seen) (keys : List Key) :
    unseen seen (key :: keys) = unseen seen keys := by
  rw [unseen, List.filter_cons_of_neg (by simpa using known), ← unseen]

theorem unseen_cons_of_not_mem {seen : List Key} {key : Key} (fresh : key ∉ seen)
    (keys : List Key) : unseen seen (key :: keys) = key :: unseen (seen ++ [key]) keys := by
  have others : (keys.filter (· ∉ seen)).filter (fun other => !other == key) =
      keys.filter (· ∉ seen ++ [key]) := by
    rw [List.filter_filter]
    refine List.filter_congr fun other _ => ?_
    rw [Bool.eq_iff_iff]
    simp [and_comm]
  rw [unseen, List.filter_cons_of_pos (by simpa using fresh), List.eraseDups_cons, others, ← unseen]

/-- The keys that have numbers are those that have been seen, numbered from `start` on. -/
theorem runOn_number (start : Nat) (seen keys : List Key) (ledger : Ledger)
    (next : ledger.counter.next = start + seen.length) :
    (number (seen.zipIdx start) keys).runOn ledger =
      (.ok ((seen ++ unseen seen keys).zipIdx start), ledger.draw (unseen seen keys).length) := by
  induction keys generalizing seen ledger with
  | nil =>
      have none : unseen seen [] = [] := rfl
      rw [none, List.append_nil, List.length_nil, Ledger.draw_zero]
      rfl
  | cons key keys ih =>
      rw [number, Distinct.lookup_zipIdx]
      by_cases known : key ∈ seen
      · rw [if_pos known, unseen_cons_of_mem known]
        exact ih seen ledger next
      · rw [if_neg known, unseen_cons_of_not_mem known]
        have longer : seen.zipIdx start ++ [(key, ledger.counter.next)] =
            (seen ++ [key]).zipIdx start := by
          rw [List.zipIdx_append, next]
          rfl
        have drawn : (ledger.draw 1).counter.next = start + (seen ++ [key]).length := by
          rw [List.length_append, ← Nat.add_assoc, ← next]
          rfl
        have rest := ih (seen ++ [key]) (ledger.draw 1) drawn
        rw [Ledger.draw_draw, List.append_assoc] at rest
        rw [if_neg (by simp), runOn_bind_ok _ runOn_next, longer, rest, List.length_cons,
          Nat.add_comm 1]
        rfl

/-- Numbers that are drawn one by one are those of the whole document. -/
theorem runOn_number_notes (items : List Scoped) (ledger : Ledger) :
    (number [] (items.filterMap noteKey?)).runOn ledger =
      (.ok (numbering ledger.counter.next items), ledger.draw (notes items).length) := by
  have all : unseen [] (items.filterMap noteKey?) = notes items := by
    simp [unseen, notes]
  have run := runOn_number ledger.counter.next [] (items.filterMap noteKey?) ledger rfl
  rwa [all] at run

theorem runOn_reconcile (html : String) (ledger : Ledger) :
    (reconcile html).runOn ledger =
      match Footnote.reconcile html ledger.counter with
      | .ok (result, _) => (.ok result, ledger.draw result.definitions)
      | .error error => (.error error, ledger) := by
  rw [reconcile, Footnote.reconcile]
  cases parsed : Html.parseBody? html with
  | none => rfl
  | some body =>
      have empty : (numbering ledger.counter.next (withScopes body).labels).isEmpty =
          decide (definitions body = 0) := by
        rw [Bool.eq_iff_iff]
        simp [numbering, definitions]
      have count : (numbering ledger.counter.next (withScopes body).labels).length =
          definitions body := List.length_zipIdx
      dsimp only
      rw [runOn_bind_ok _ (runOn_number_notes _ ledger), empty, ← isSettled]
      cases settled : isSettled body with
      | true =>
          have none : definitions body = 0 := by
            rw [isSettled, Bool.and_eq_true, decide_eq_true_eq] at settled
            exact settled.1
          have drawn : (notes (withScopes body).labels).length = 0 := none
          rw [none, drawn]
          rfl
      | false =>
          rw [count]
          rfl

theorem runOn_renderDocument (pipeline : Pipeline) (plain : Bool) (chapters : List Chapter)
    (ledger : Ledger) :
    (renderDocument pipeline plain chapters).runOn ledger =
      match pipeline.renderDocument plain chapters ledger.counter with
      | .ok (result, _) => (.ok result, ledger.draw result.definitions)
      | .error error => (.error error, ledger) := by
  rw [renderDocument, Pipeline.renderDocument]
  cases rendered : chapters.mapM (pipeline.renderNamed plain) with
  | error error => exact runOn_bind_error _ (runOn_ofExcept _)
  | ok fragments => exact (runOn_bind_ok _ (runOn_ofExcept _)).trans (runOn_reconcile _ ledger)

end Drawing

/-- The outcome of a call at a counter, and the counter behind it. -/
def Call.result (counter : Counter) : Call → Except BookError (Answer × Counter)
  | .next => .ok (.number counter.next, counter.advance 1)
  | .reconcile html =>
      (Footnote.reconcile html counter).map fun (result, behind) => (.reconciled result, behind)
  | .document pipeline plain chapters =>
      (pipeline.renderDocument plain chapters counter).map fun (result, behind) =>
        (.reconciled result, behind)

/-- How many numbers have been drawn for an outcome. -/
def taken : Except BookError Answer → Nat
  | .ok (.number _) => 1
  | .ok (.reconciled result) => result.definitions
  | .error _ => 0

/-- A call draws one number for each that it hands out or gives to a note. One that fails
draws none. -/
theorem Call.runOn_perform (call : Call) (ledger : Ledger) :
    call.perform.runOn ledger =
      match call.result ledger.counter with
      | .ok (answer, _) => (.ok answer, ledger.draw (taken (.ok answer)))
      | .error error => (.error error, ledger) := by
  cases call with
  | next => rfl
  | reconcile html =>
      have run := Drawing.runOn_reconcile html ledger
      rw [perform, result]
      cases done : Footnote.reconcile html ledger.counter with
      | error error =>
          rw [done] at run
          exact Drawing.runOn_bind_error _ run
      | ok pair =>
          rw [done] at run
          exact Drawing.runOn_bind_ok _ run
  | document pipeline plain chapters =>
      have run := Drawing.runOn_renderDocument pipeline plain chapters ledger
      rw [perform, result]
      cases done : pipeline.renderDocument plain chapters ledger.counter with
      | error error =>
          rw [done] at run
          exact Drawing.runOn_bind_error _ run
      | ok pair =>
          rw [done] at run
          exact Drawing.runOn_bind_ok _ run

theorem Footnote.counter_of_reconcile {html : String} {counter behind : Counter}
    {result : Reconciled} (done : Footnote.reconcile html counter = .ok (result, behind)) :
    behind = counter.advance result.definitions := by
  rw [Footnote.reconcile] at done
  cases parsed : Html.parseBody? html with
  | none =>
      rw [parsed] at done
      cases done
  | some body =>
      rw [parsed] at done
      cases done
      rfl

theorem Call.counter_of_result {call : Call} {counter behind : Counter} {answer : Answer}
    (done : call.result counter = .ok (answer, behind)) :
    behind = counter.advance (taken (.ok answer)) := by
  cases call with
  | next =>
      cases done
      rfl
  | reconcile html =>
      obtain ⟨⟨reconciled, next⟩, found, pair⟩ := map_eq_ok done
      cases pair
      exact Footnote.counter_of_reconcile found
  | document pipeline plain chapters =>
      obtain ⟨⟨reconciled, next⟩, found, pair⟩ := map_eq_ok done
      cases pair
      obtain ⟨fragments, -, reconciles⟩ := bind_eq_ok found
      exact Footnote.counter_of_reconcile reconciles

theorem Call.runOn_perform_snd (call : Call) (ledger : Ledger) :
    (call.perform.runOn ledger).2 = ledger.draw (taken (call.perform.runOn ledger).1) := by
  rw [call.runOn_perform]
  cases call.result ledger.counter with
  | ok pair => rfl
  | error error => exact ledger.draw_zero.symm

theorem session_cons (call : Call) (calls : List Call) (ledger : Ledger) :
    (session (call :: calls)).run ledger =
      let done := call.perform.runOn ledger
      let others := (session calls).run done.2
      (done.1 :: others.1, others.2) := by
  rw [session, List.mapM_cons]
  rfl

theorem session_append (calls more : List Call) (ledger : Ledger) :
    (session (calls ++ more)).run ledger =
      let done := (session calls).run ledger
      let others := (session more).run done.2
      (done.1 ++ others.1, others.2) := by
  rw [session, List.mapM_append]
  rfl

/-- What a session has drawn is what its outcomes have taken. -/
theorem session_snd (calls : List Call) (start : Ledger) :
    ((session calls).run start).2 =
      start.draw (((session calls).run start).1.map taken).sum := by
  induction calls generalizing start with
  | nil => exact start.draw_zero.symm
  | cons call calls ih =>
      rw [session_cons]
      dsimp only
      rw [ih, call.runOn_perform_snd, Ledger.draw_draw, List.map_cons, List.sum_cons]

/-- At every point of a session the counter has moved by what the calls so far have
taken, and these are the numbers that have been drawn, in their order. From there the
next call either is answered and draws what it takes, or it fails and draws nothing. -/
theorem session_draws_in_order (calls : List Call) (start : Ledger) :
    let (outcomes, last) := (session calls).run start
    let count := (outcomes.map taken).sum
    last.counter.next = start.counter.next + count ∧
      last.drawn = start.drawn ++ List.range' start.counter.next count ∧
      (∀ more, (session (calls ++ more)).run start =
        let (others, behind) := (session more).run last
        (outcomes ++ others, behind)) ∧
      ∀ call : Call,
        match call.result last.counter with
        | .ok (answer, behind) =>
            call.perform.runOn last = (.ok answer, last.draw (taken (.ok answer))) ∧
              behind = last.counter.advance (taken (.ok answer))
        | .error error => call.perform.runOn last = (.error error, last) := by
  have drawn := session_snd calls start
  have append := fun more => session_append calls more start
  cases ran : (session calls).run start with
  | mk outcomes last =>
      rw [ran] at drawn
      simp only [ran] at append
      refine ⟨?counter, ?drawn, append, ?call⟩
      case counter => exact congrArg (·.counter.next) drawn
      case drawn => exact congrArg (·.drawn) drawn
      case call =>
        intro call
        have run := call.runOn_perform last
        cases done : call.result last.counter with
        | ok pair =>
            rw [done] at run
            exact ⟨run, Call.counter_of_result done⟩
        | error error =>
            rw [done] at run
            exact run

/-- A document whose only file cannot be read takes no number. -/
example :
    let unread : Pipeline := ⟨⟨"code", fun _ => .error (.refused "denied"),
      Snippet.plainHighlighter⟩, .standard⟩
    let calls := [.next, .document unread false [⟨"one", ["1.md"]⟩], .next]
    ((session calls).run ⟨.start, []⟩).2.drawn = [1, 2] := by
  rfl

end Bindery
