import Bindery.Book.Job

/-!
# Several jobs at once

A pool starts jobs in order, at most a given number of them at once. They may
end in any order. Results are collected in the order of the jobs, and a failure
counts when its turn has come.
-/

set_option autoImplicit false

namespace Bindery.Book

/-- A job that has been started. -/
structure Task where
  job : Job
  done : Bool
  deriving Repr, DecidableEq, Inhabited

/-- Jobs on their way. -/
structure Pool where
  waiting : List Job
  running : List Task
  collected : List Rendered
  events : List Event
  deriving Repr, DecidableEq, Inhabited

/-- What may happen next in a pool. -/
inductive Move where
  /-- The next job begins. -/
  | start
  /-- A running job ends, counted from the oldest. -/
  | finish (position : Nat)
  /-- The result of the oldest job is taken. -/
  | collect
  deriving Repr, DecidableEq, Inhabited

namespace Pool

def ofJobs (jobs : List Job) : Pool := ⟨jobs, [], [], []⟩

def start (pool : Pool) : Pool :=
  match pool.waiting with
  | [] => pool
  | job :: waiting =>
      { pool with
        waiting
        running := pool.running ++ [⟨job, false⟩]
        events := pool.events ++ [job.began] }

/-- The running job at a position ends, unless it has ended before. -/
def finish (work : Work) (pool : Pool) (position : Nat) : Pool :=
  match pool.running[position]? with
  | some ⟨job, false⟩ =>
      { pool with
        running := pool.running.set position ⟨job, true⟩
        events := pool.events ++ [job.ended (work job)] }
  | _ => pool

/-- The result of the oldest job is taken if there is one, unless the job has failed. -/
def collect (work : Work) (pool : Pool) : Pool :=
  match pool.running with
  | ⟨job, true⟩ :: running =>
      match job.conclude (work job) with
      | .ok rendered => { pool with running, collected := pool.collected ++ [rendered] }
      | .error _ => pool
  | _ => pool

/-- The error of the oldest job, if it has ended with one. -/
def failure? (work : Work) (pool : Pool) : Option BookError :=
  match pool.running with
  | ⟨job, true⟩ :: _ =>
      match job.conclude (work job) with
      | .ok _ => none
      | .error error => some error
  | _ => none

/-- Makes a move if it is allowed. Nothing moves after a failure. -/
def step (work : Work) (limit : Nat) (pool : Pool) (move : Move) : Pool :=
  if (pool.failure? work).isSome then pool
  else
    match move with
    | .start => if pool.running.length < limit then pool.start else pool
    | .finish position => pool.finish work position
    | .collect => pool.collect work

/-- How many moves are left at most. -/
def movesLeft (pool : Pool) : Nat :=
  3 * pool.waiting.length + pool.running.length + pool.running.countP (!·.done)

/-- Does what is left to do, the oldest job first. -/
def settle (work : Work) (pool : Pool) : Pool :=
  match pool with
  | ⟨waiting, ⟨job, false⟩ :: running, collected, events⟩ =>
      settle work ⟨waiting, ⟨job, true⟩ :: running, collected, events ++ [job.ended (work job)]⟩
  | ⟨waiting, ⟨job, true⟩ :: running, collected, events⟩ =>
      match job.conclude (work job) with
      | .ok rendered => settle work ⟨waiting, running, collected ++ [rendered], events⟩
      | .error _ => ⟨waiting, ⟨job, true⟩ :: running, collected, events⟩
  | ⟨job :: waiting, [], collected, events⟩ =>
      settle work ⟨waiting, [⟨job, false⟩], collected, events ++ [job.began]⟩
  | ⟨[], [], collected, events⟩ => ⟨[], [], collected, events⟩
termination_by pool.movesLeft
decreasing_by all_goals simp [movesLeft]; try omega

def result (work : Work) (pool : Pool) : Except BookError (List Rendered) :=
  match pool.failure? work with
  | some error => .error error
  | none => .ok pool.collected

end Pool

/-- Does jobs with the moves of a schedule, as far as they are allowed, and then what is
left to do. -/
def doTogether (work : Work) (limit : Nat) (schedule : List Move) (jobs : List Job) :
    List Event × Except BookError (List Rendered) :=
  let pool := (schedule.foldl (Pool.step work limit) (.ofJobs jobs)).settle work
  (pool.events, pool.result work)

end Bindery.Book
