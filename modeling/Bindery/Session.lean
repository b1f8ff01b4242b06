import Bindery.Document

/-!
# Sessions

Several calls draw their numbers from one counter, one call after the other. A
call that fails does not end the session, and what it has drawn stays drawn.
-/

set_option autoImplicit false

namespace Bindery

open Footnote

/-- A counter, and the numbers that have been drawn from it. -/
structure Ledger where
  counter : Counter
  drawn : List Nat
  deriving Repr, DecidableEq, Inhabited

/-- Computations that draw numbers and may fail. -/
abbrev Drawing := ExceptT BookError (StateM Ledger)

namespace Drawing

/-- The outcome of a computation, and the ledger behind it. -/
def runOn {α : Type} (computation : Drawing α) (ledger : Ledger) : Except BookError α × Ledger :=
  computation.run.run ledger

def next : Drawing Nat := do
  let ledger ← get
  set (Ledger.mk (ledger.counter.advance 1) (ledger.drawn ++ [ledger.counter.next]))
  return ledger.counter.next

/-- Draws a number for each note that has none yet. -/
def number (numbers : Numbering) : List Key → Drawing Numbering
  | [] => return numbers
  | key :: keys =>
      if (numbers.lookup key).isSome then number numbers keys
      else do
        let index ← next
        number (numbers ++ [(key, index)]) keys

/-- Renumbers a document with numbers that are drawn one by one. -/
def reconcile (html : String) : Drawing Reconciled :=
  match Html.parseBody? html with
  | none => throw .noBody
  | some body => do
      let tree := withScopes body
      let numbers ← number [] (tree.labels.filterMap noteKey?)
      let dangling := tree.labels.countP numbers.isDangling
      if numbers.isEmpty && !body.labels.any isMarked then return ⟨html, 0, dangling⟩
      else return ⟨(tree.map numbers.relabel).inner, numbers.length, dangling⟩

/-- Renders chapters, and numbers their notes once all of them are rendered. -/
def renderDocument (pipeline : Pipeline) (plain : Bool) (chapters : List Chapter) :
    Drawing Reconciled := do
  let fragments ← ofExcept (chapters.mapM (pipeline.renderNamed plain))
  reconcile (String.intercalate separator fragments)

end Drawing

/-- What a session is asked for. -/
inductive Call where
  | next
  | reconcile (html : String)
  | document (pipeline : Pipeline) (plain : Bool) (chapters : List Chapter)

inductive Answer where
  | number (value : Nat)
  | reconciled (result : Reconciled)
  deriving Repr, DecidableEq

def Call.perform : Call → Drawing Answer
  | .next => return .number (← Drawing.next)
  | .reconcile html => return .reconciled (← Drawing.reconcile html)
  | .document pipeline plain chapters =>
      return .reconciled (← Drawing.renderDocument pipeline plain chapters)

/-- The outcomes of calls that are performed one after the other. -/
def session (calls : List Call) : StateM Ledger (List (Except BookError Answer)) :=
  calls.mapM fun call => call.perform.run

end Bindery
