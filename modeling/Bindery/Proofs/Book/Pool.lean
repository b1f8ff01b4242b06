import Bindery.Book.Pool
import Bindery.Proofs.Outcome
import Mathlib.Data.List.Infix

/-!
# A pool collects what its jobs give in order

Whatever moves are made, the results still to come are those of the jobs done one
after the other. A run of allowed moves cannot go on for ever, and where no move
is allowed any more all results are there, or the first error.
-/

set_option autoImplicit false

namespace Bindery.Book

/-! ## Jobs one after the other -/

section

variable {work : Work} {job : Job}

theorem doInOrder_cons_ok {rendered : Rendered} (rest : List Job)
    (done : job.conclude (work job) = .ok rendered) :
    (doInOrder work (job :: rest)).2 = (doInOrder work rest).2.map (rendered :: ·) := by
  simp only [doInOrder, done]

theorem doInOrder_cons_error {error : BookError} (rest : List Job)
    (failed : job.conclude (work job) = .error error) :
    (doInOrder work (job :: rest)).2 = .error error := by
  simp only [doInOrder, failed]

theorem doInOrder_snd (work : Work) (jobs : List Job) :
    (doInOrder work jobs).2 = jobs.mapM fun job => job.conclude (work job) := by
  induction jobs with
  | nil => rfl
  | cons job rest ih =>
      rw [List.mapM_cons, ← ih]
      cases concluded : job.conclude (work job) with
      | error error => exact doInOrder_cons_error rest concluded
      | ok rendered =>
          rw [doInOrder_cons_ok rest concluded]
          rfl

theorem doInOrder_of_first_failure {before after : List Job} {error : BookError}
    (done : ∀ earlier ∈ before, ∃ rendered, earlier.conclude (work earlier) = .ok rendered)
    (failed : job.conclude (work job) = .error error) :
    (doInOrder work (before ++ job :: after)).2 = .error error := by
  rw [doInOrder_snd]
  exact mapM_eq_error_iff.mpr ⟨before, job, after, rfl, done, failed⟩

end

namespace Pool

/-- The jobs whose results have not been collected yet, in their order. -/
def ahead (pool : Pool) : List Job := pool.running.map (·.job) ++ pool.waiting

/-- What is collected in the end if the jobs ahead are done one after the other. -/
def outcome (work : Work) (pool : Pool) : Except BookError (List Rendered) :=
  (doInOrder work pool.ahead).2.map (pool.collected ++ ·)

/-- A pool has failed, or has nothing left to do. -/
def Over (work : Work) (pool : Pool) : Prop :=
  (∃ error, pool.failure? work = some error) ∨ (pool.running = [] ∧ pool.waiting = [])

/-- The moves that change a pool. -/
inductive Allowed (work : Work) (limit : Nat) (pool : Pool) : Move → Prop where
  | start {job waiting} :
      pool.failure? work = none → pool.waiting = job :: waiting → pool.running.length < limit →
      Allowed work limit pool .start
  | finish {position job} :
      pool.failure? work = none → pool.running[position]? = some ⟨job, false⟩ →
      Allowed work limit pool (.finish position)
  | collect {job running rendered} :
      pool.running = ⟨job, true⟩ :: running → job.conclude (work job) = .ok rendered →
      Allowed work limit pool .collect

/-- A pool reaches another one by these moves, each of them allowed in its turn. -/
inductive Runs (work : Work) (limit : Nat) : Pool → List Move → Pool → Prop where
  | refl {pool} : Runs work limit pool [] pool
  | move {pool move moves last} :
      Allowed work limit pool move → Runs work limit (pool.step work limit move) moves last →
      Runs work limit pool (move :: moves) last

section

variable {work : Work} {limit : Nat} {pool : Pool}

/-! ## What a move keeps -/

theorem ahead_start (pool : Pool) : pool.start.ahead = pool.ahead := by
  unfold start
  split
  · rfl
  · next job waiting found => simp [ahead, found]

theorem ahead_finish (pool : Pool) (position : Nat) :
    (pool.finish work position).ahead = pool.ahead := by
  unfold finish
  split
  · next job found =>
      have same : (pool.running.set position ⟨job, true⟩).map (·.job) =
          pool.running.map (·.job) := by
        apply List.ext_getElem?
        intro index
        rw [List.getElem?_map, List.getElem?_map, List.getElem?_set]
        split
        · next here =>
            subst here
            obtain ⟨inside, here⟩ := List.getElem?_eq_some_iff.mp found
            simp [inside, here]
        · rfl
      simp only [ahead, same]
  · rfl

theorem outcome_of_done {job : Job} {running : List Task} {rendered : Rendered}
    (first : pool.running = ⟨job, true⟩ :: running)
    (done : job.conclude (work job) = .ok rendered) :
    outcome work { pool with running, collected := pool.collected ++ [rendered] } =
      pool.outcome work := by
  have ahead : pool.ahead = job :: (running.map (·.job) ++ pool.waiting) := by
    simp [Pool.ahead, first]
  unfold outcome
  rw [ahead, doInOrder_cons_ok _ done]
  cases result : (doInOrder work (running.map (·.job) ++ pool.waiting)).2 with
  | error error => simp [Pool.ahead, result, Except.map]
  | ok others => simp [Pool.ahead, result, Except.map]

theorem outcome_start (pool : Pool) : pool.start.outcome work = pool.outcome work := by
  have same : pool.start.collected = pool.collected := by
    unfold start
    split <;> rfl
  rw [outcome, outcome, ahead_start, same]

theorem outcome_finish (pool : Pool) (position : Nat) :
    (pool.finish work position).outcome work = pool.outcome work := by
  have same : (pool.finish work position).collected = pool.collected := by
    unfold finish
    split <;> rfl
  rw [outcome, outcome, ahead_finish, same]

theorem outcome_collect (pool : Pool) : (pool.collect work).outcome work = pool.outcome work := by
  unfold collect
  split
  · next job running first =>
      split
      · next rendered done => exact outcome_of_done first done
      · rfl
  · rfl

/-- No move changes what is collected in the end. -/
theorem outcome_step (pool : Pool) (move : Move) :
    (pool.step work limit move).outcome work = pool.outcome work := by
  unfold step
  split
  · rfl
  · cases move with
    | start =>
        dsimp only
        split
        · exact outcome_start pool
        · rfl
    | finish position => exact outcome_finish pool position
    | collect => exact outcome_collect pool

theorem outcome_foldl_step (pool : Pool) (schedule : List Move) :
    (schedule.foldl (step work limit) pool).outcome work = pool.outcome work := by
  induction schedule generalizing pool with
  | nil => rfl
  | cons move rest ih => rw [List.foldl_cons, ih, outcome_step]

theorem outcome_settle (pool : Pool) : (pool.settle work).outcome work = pool.outcome work := by
  fun_induction settle work pool with
  | case1 waiting job running collected events ih => exact ih
  | case2 waiting job running collected events rendered done ih =>
      let before : Pool := ⟨waiting, ⟨job, true⟩ :: running, collected, events⟩
      have first : before.running = ⟨job, true⟩ :: running := rfl
      rw [ih]
      exact outcome_of_done first done
  | case3 => rfl
  | case4 job waiting collected events ih => exact ih
  | case5 => rfl

/-! ## Where a pool ends -/

theorem over_settle (pool : Pool) : Over work (pool.settle work) := by
  fun_induction settle work pool with
  | case1 waiting job running collected events ih => exact ih
  | case2 waiting job running collected events rendered done ih => exact ih
  | case3 waiting job running collected events error failed =>
      exact .inl ⟨error, by simp only [failure?, failed]⟩
  | case4 job waiting collected events ih => exact ih
  | case5 => exact .inr ⟨rfl, rfl⟩

theorem exists_failed {error : BookError} (failed : pool.failure? work = some error) :
    ∃ job running, pool.running = ⟨job, true⟩ :: running ∧
      job.conclude (work job) = .error error := by
  unfold failure? at failed
  split at failed
  · next job running first =>
      split at failed
      · cases failed
      · next cause result =>
          cases failed
          exact ⟨job, running, first, result⟩
  · cases failed

theorem result_of_over (ended : Over work pool) : pool.result work = pool.outcome work := by
  rcases ended with ⟨error, failed⟩ | ⟨stopped, empty⟩
  · obtain ⟨job, running, first, concluded⟩ := exists_failed failed
    have ahead : pool.ahead = job :: (running.map (·.job) ++ pool.waiting) := by
      simp [Pool.ahead, first]
    rw [result, failed, outcome, ahead, doInOrder_cons_error _ concluded]
    rfl
  · have none : pool.failure? work = none := by
      unfold failure?
      rw [stopped]
    have ahead : pool.ahead = [] := by simp [Pool.ahead, stopped, empty]
    rw [result, none, outcome, ahead]
    simp [doInOrder, Except.map]

/-- As long as a pool is not over, something may happen. -/
theorem over_or_exists_allowed (positive : 0 < limit) (pool : Pool) :
    Over work pool ∨ ∃ move, Allowed work limit pool move := by
  cases failed : pool.failure? work with
  | some error => exact .inl (.inl ⟨error, failed⟩)
  | none =>
      cases running : pool.running with
      | nil =>
          cases waiting : pool.waiting with
          | nil => exact .inl (.inr ⟨running, waiting⟩)
          | cons job rest => exact .inr ⟨.start, .start failed waiting (by simpa [running])⟩
      | cons first rest =>
          obtain ⟨job, done⟩ := first
          cases done with
          | false =>
              have oldest : pool.running[0]? = some ⟨job, false⟩ := by simp [running]
              exact .inr ⟨.finish 0, .finish failed oldest⟩
          | true =>
              cases concluded : job.conclude (work job) with
              | ok rendered => exact .inr ⟨.collect, .collect running concluded⟩
              | error error => simp [failure?, running, concluded] at failed

theorem over_of_stuck (positive : 0 < limit) (stuck : ∀ move, ¬ Allowed work limit pool move) :
    Over work pool := by
  rcases over_or_exists_allowed positive pool with ended | ⟨move, allowed⟩
  · exact ended
  · exact absurd allowed (stuck move)

/-! ## Runs -/

theorem failure?_of_done {job : Job} {running : List Task} {rendered : Rendered}
    (first : pool.running = ⟨job, true⟩ :: running)
    (done : job.conclude (work job) = .ok rendered) : pool.failure? work = none := by
  simp [failure?, first, done]

theorem Allowed.fine {move : Move} (allowed : Allowed work limit pool move) :
    pool.failure? work = none := by
  cases allowed with
  | start fine _ _ => exact fine
  | finish fine _ => exact fine
  | collect first done => exact failure?_of_done first done

theorem step_start {job : Job} {waiting : List Job} (fine : pool.failure? work = none)
    (found : pool.waiting = job :: waiting) (free : pool.running.length < limit) :
    pool.step work limit .start =
      { pool with
        waiting
        running := pool.running ++ [⟨job, false⟩]
        events := pool.events ++ [job.began] } := by
  simp [step, fine, free, Pool.start, found]

theorem step_finish {position : Nat} {job : Job} (fine : pool.failure? work = none)
    (found : pool.running[position]? = some ⟨job, false⟩) :
    pool.step work limit (.finish position) =
      { pool with
        running := pool.running.set position ⟨job, true⟩
        events := pool.events ++ [job.ended (work job)] } := by
  simp [step, fine, Pool.finish, found]

theorem step_collect {job : Job} {running : List Task} {rendered : Rendered}
    (first : pool.running = ⟨job, true⟩ :: running)
    (done : job.conclude (work job) = .ok rendered) :
    pool.step work limit .collect =
      { pool with running, collected := pool.collected ++ [rendered] } := by
  simp [step, failure?_of_done first done, Pool.collect, first, done]

theorem Allowed.movesLeft_lt {move : Move} (allowed : Allowed work limit pool move) :
    (pool.step work limit move).movesLeft < pool.movesLeft := by
  cases allowed with
  | start fine found free =>
      rw [step_start fine found free]
      simp only [movesLeft, found, List.length_cons, List.length_append, List.countP_append,
        List.length_nil, List.countP_singleton]
      simp
      omega
  | @finish position job fine found =>
      obtain ⟨inside, here⟩ := List.getElem?_eq_some_iff.mp found
      have fewer : (pool.running.set position ⟨job, true⟩).countP (fun task => !task.done) =
          pool.running.countP (fun task => !task.done) - 1 := by
        rw [List.countP_set inside, here]
        rfl
      have some : 0 < pool.running.countP (fun task => !task.done) :=
        List.countP_pos_iff.mpr ⟨_, List.mem_of_getElem? found, rfl⟩
      rw [step_finish fine found]
      simp only [movesLeft, fewer, List.length_set]
      omega
  | collect first done =>
      rw [step_collect first done]
      simp [movesLeft, first]

theorem Allowed.within {move : Move} (allowed : Allowed work limit pool move)
    (within : pool.running.length ≤ limit) :
    (pool.step work limit move).running.length ≤ limit := by
  cases allowed with
  | start fine found free =>
      rw [step_start fine found free]
      simpa [Nat.succ_le_iff] using free
  | finish fine found =>
      rw [step_finish fine found]
      simpa using within
  | collect first done =>
      rw [first, List.length_cons] at within
      rw [step_collect first done]
      exact Nat.le_of_succ_le within

theorem Allowed.waiting_suffix {move : Move} (allowed : Allowed work limit pool move) :
    (pool.step work limit move).waiting <:+ pool.waiting := by
  cases allowed with
  | @start job waiting fine found free =>
      rw [step_start fine found free, found]
      exact List.suffix_cons job waiting
  | finish fine found => rw [step_finish fine found]
  | collect first done => rw [step_collect first done]

variable {last : Pool} {moves : List Move}

theorem Runs.outcome_eq (runs : Runs work limit pool moves last) :
    last.outcome work = pool.outcome work := by
  induction runs with
  | refl => rfl
  | move allowed _ ih => rw [ih, outcome_step]

theorem Runs.length_le (runs : Runs work limit pool moves last) :
    moves.length + last.movesLeft ≤ pool.movesLeft := by
  induction runs with
  | refl => simp
  | move allowed _ ih =>
      have fewer := allowed.movesLeft_lt
      rw [List.length_cons]
      omega

/-- No more jobs are on their way at once than the limit says. -/
theorem Runs.within (runs : Runs work limit pool moves last)
    (within : pool.running.length ≤ limit) : last.running.length ≤ limit := by
  induction runs with
  | refl => exact within
  | move allowed _ ih => exact ih (allowed.within within)

/-- Jobs are started in their order. -/
theorem Runs.waiting_suffix (runs : Runs work limit pool moves last) :
    last.waiting <:+ pool.waiting := by
  induction runs with
  | refl => exact List.suffix_rfl
  | move allowed _ ih => exact ih.trans allowed.waiting_suffix

/-- A run that cannot go on has the results of its jobs in order. -/
theorem Runs.result_eq (positive : 0 < limit) (runs : Runs work limit pool moves last)
    (stuck : ∀ move, ¬ Allowed work limit last move) : last.result work = pool.outcome work := by
  rw [result_of_over (over_of_stuck positive stuck), runs.outcome_eq]

theorem outcome_ofJobs (jobs : List Job) :
    (ofJobs jobs).outcome work = (doInOrder work jobs).2 := by
  change (doInOrder work jobs).2.map ([] ++ ·) = _
  cases (doInOrder work jobs).2 <;> rfl

end

end Pool

theorem doTogether_eq_doInOrder (work : Work) (limit : Nat) (schedule : List Move)
    (jobs : List Job) : (doTogether work limit schedule jobs).2 = (doInOrder work jobs).2 := by
  calc
    (doTogether work limit schedule jobs).2
      = ((schedule.foldl (Pool.step work limit) (.ofJobs jobs)).settle work).outcome work :=
        Pool.result_of_over (Pool.over_settle _)
    _ = (Pool.ofJobs jobs).outcome work := by
        rw [Pool.outcome_settle, Pool.outcome_foldl_step]
    _ = (doInOrder work jobs).2 := Pool.outcome_ofJobs jobs

end Bindery.Book
