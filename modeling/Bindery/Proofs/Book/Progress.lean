import Bindery.Proofs.Book.Document

/-!
# What is told during an export

An export tells how many chapters it has found, and then of each chapter that it begins
and how it ended. The first chapter that fails is the last thing that is told. The end
of the export is told exactly if there is an edition. One chapter at once is told of as
the chapters are one after the other.
-/

set_option autoImplicit false

namespace Bindery.Book

open Files (FileTree)

/-- What is told while chapters are rendered, the first of which has the place `index` among all
of them, and the error that it ends with, if there is one. -/
inductive Tells (render : Chapter → Except BookError String) (total : Nat) :
    (index : Nat) → List Chapter → List Event → Option BookError → Prop where
  | finished {index} : Tells render total index [] [] none
  | rendered {index chapter chapters html events failure} :
      render chapter = .ok html → Tells render total (index + 1) chapters events failure →
      Tells render total index (chapter :: chapters)
        (.chapterStarted index total chapter.name ::
          .chapterRendered index total chapter.name html.utf8ByteSize :: events) failure
  | failed {index chapter chapters cause} :
      render chapter = .error cause →
      Tells render total index (chapter :: chapters)
        [.chapterStarted index total chapter.name, .chapterFailed index total chapter.name cause]
        (some (.chapter chapter.name cause))

/-- What is told of an export that has found these chapters, and what it gives. -/
inductive TellsExport (render : Chapter → Except BookError String) (chapters : List Chapter) :
    List Event × Except BookError Edition → Prop where
  /-- A chapter cannot be rendered. -/
  | stopped {told error} :
      Tells render chapters.length 1 chapters told (some error) →
      TellsExport render chapters (.exportStarted chapters.length :: told, .error error)
  /-- The chapters are rendered, but the notes cannot be numbered or the changelog fails. -/
  | unfinished {told error} :
      Tells render chapters.length 1 chapters told none →
      TellsExport render chapters (.exportStarted chapters.length :: told, .error error)
  | finished {told edition} :
      Tells render chapters.length 1 chapters told none →
      TellsExport render chapters
        (.exportStarted chapters.length ::
          (told ++ [.exportFinished chapters.length edition.stats.notes]), .ok edition)

def Event.isExportFinished : Event → Bool
  | .exportFinished _ _ => true
  | _ => false

def Event.isChapterFailed : Event → Bool
  | .chapterFailed _ _ _ _ => true
  | _ => false

section

variable {render : Chapter → Except BookError String} {total index : Nat}
  {chapters : List Chapter} {told : List Event} {failure : Option BookError}

theorem Tells.not_isExportFinished (tells : Tells render total index chapters told failure) :
    ∀ event ∈ told, event.isExportFinished = false := by
  induction tells with
  | finished => nofun
  | rendered _ _ ih => simpa [Event.isExportFinished] using ih
  | failed _ => simp [Event.isExportFinished]

/-- No chapter has failed, unless it ends with an error. -/
theorem Tells.not_isChapterFailed (tells : Tells render total index chapters told failure)
    (fine : failure = none) : ∀ event ∈ told, event.isChapterFailed = false := by
  induction tells with
  | finished => nofun
  | rendered _ _ ih => simpa [Event.isChapterFailed] using ih fine
  | failed _ => cases fine

/-- Nothing is told behind the failure of a chapter. -/
theorem Tells.pairwise (tells : Tells render total index chapters told failure) :
    told.Pairwise fun earlier _ => earlier.isChapterFailed = false := by
  induction tells with
  | finished => exact .nil
  | rendered _ _ ih => simpa [Event.isChapterFailed] using ih
  | failed _ => simp [Event.isChapterFailed]

variable {events : List Event} {result : Except BookError Edition}

theorem TellsExport.pairwise (tells : TellsExport render chapters (events, result)) :
    events.Pairwise fun earlier _ => earlier.isChapterFailed = false := by
  cases tells with
  | stopped tells => exact List.pairwise_cons.mpr ⟨fun _ _ => rfl, tells.pairwise⟩
  | unfinished tells => exact List.pairwise_cons.mpr ⟨fun _ _ => rfl, tells.pairwise⟩
  | finished tells =>
      refine List.pairwise_cons.mpr ⟨fun _ _ => rfl, List.pairwise_append.mpr ?_⟩
      exact ⟨tells.pairwise, List.pairwise_singleton _ _,
        fun earlier member _ _ => tells.not_isChapterFailed rfl earlier member⟩

/-- The end of the export is told once, as the last thing, if there is an edition, and not at all
if there is none. -/
def EndsOnce (total : Nat) (events : List Event) : Except BookError Edition → Prop
  | .ok edition => ∃ before, events = before ++ [.exportFinished total edition.stats.notes] ∧
      ∀ event ∈ before, event.isExportFinished = false
  | .error _ => ∀ event ∈ events, event.isExportFinished = false

theorem TellsExport.endsOnce (tells : TellsExport render chapters (events, result)) :
    EndsOnce chapters.length events result := by
  cases tells with
  | stopped tells => exact List.forall_mem_cons.mpr ⟨rfl, tells.not_isExportFinished⟩
  | unfinished tells => exact List.forall_mem_cons.mpr ⟨rfl, tells.not_isExportFinished⟩
  | finished tells =>
      exact ⟨_, rfl, List.forall_mem_cons.mpr ⟨rfl, tells.not_isExportFinished⟩⟩

end

/-! ## Chapters one after the other -/

section

variable {work : Work} {render : Chapter → Except BookError String}

/-- Jobs one after the other tell of their chapters, and end with the error that is told. -/
theorem tells_doInOrder (renders : ∀ job, work job = render job.chapter) (total index : Nat)
    (chapters : List Chapter) :
    let done := doInOrder work (chapters.mapIdx fun position chapter =>
      ⟨index + position, total, chapter⟩)
    (∃ rendered, done.2 = .ok rendered ∧ Tells render total index chapters done.1 none) ∨
      ∃ error, done.2 = .error error ∧ Tells render total index chapters done.1 (some error) := by
  induction chapters generalizing index with
  | nil => exact .inl ⟨[], rfl, .finished⟩
  | cons chapter chapters ih =>
      have next : (fun position chapter => Job.mk (index + (position + 1)) total chapter) =
          fun position chapter => ⟨index + 1 + position, total, chapter⟩ := by
        funext position chapter
        rw [Nat.add_assoc, Nat.add_comm 1]
      rw [List.mapIdx_cons, next]
      simp only [doInOrder, renders, Nat.add_zero]
      cases result : render chapter with
      | error cause => exact .inr ⟨_, rfl, .failed result⟩
      | ok html =>
          rcases ih (index + 1) with ⟨others, done, tells⟩ | ⟨error, failed, tells⟩
          · exact .inl ⟨_, congrArg (Except.map _) done, .rendered result tells⟩
          · exact .inr ⟨error, congrArg (Except.map _) failed, .rendered result tells⟩

end

/-! ## One chapter at once -/

namespace Pool

/-- What the jobs on their way and those behind them tell when they are done one after the
other. -/
def eventsAhead (work : Work) : List Task → List Job → List Event
  | [], waiting => (doInOrder work waiting).1
  | ⟨job, done⟩ :: running, waiting =>
      (if done then [] else [job.ended (work job)]) ++
        match job.conclude (work job) with
        | .ok _ => eventsAhead work running waiting
        | .error _ => []

/-- What a pool has told in the end if it goes on one job after the other. -/
def log (work : Work) (pool : Pool) : List Event :=
  pool.events ++ eventsAhead work pool.running pool.waiting

section

variable {work : Work} {pool : Pool}

theorem eventsAhead_started (job : Job) (waiting : List Job) :
    job.began :: eventsAhead work [⟨job, false⟩] waiting = (doInOrder work (job :: waiting)).1 := by
  rw [eventsAhead, doInOrder]
  cases job.conclude (work job) <;> rfl

theorem eventsAhead_ended (job : Job) (running : List Task) (waiting : List Job) :
    job.ended (work job) :: eventsAhead work (⟨job, true⟩ :: running) waiting =
      eventsAhead work (⟨job, false⟩ :: running) waiting := by
  rw [eventsAhead, eventsAhead]
  rfl

theorem eventsAhead_collected {job : Job} {rendered : Rendered} (running : List Task)
    (waiting : List Job) (done : job.conclude (work job) = .ok rendered) :
    eventsAhead work (⟨job, true⟩ :: running) waiting = eventsAhead work running waiting := by
  rw [eventsAhead, done]
  rfl

/-- With no job on its way, the next one is told of in its turn. -/
theorem log_start (none : pool.running = []) : pool.start.log work = pool.log work := by
  unfold start
  split
  · rfl
  · next job waiting found =>
      unfold log
      rw [none, found, List.nil_append, eventsAhead, ← eventsAhead_started, List.append_assoc]
      rfl

theorem log_finish (one : pool.running.length ≤ 1) (position : Nat) :
    (pool.finish work position).log work = pool.log work := by
  unfold finish
  split
  · next job found =>
      obtain ⟨inside, here⟩ := List.getElem?_eq_some_iff.mp found
      obtain rfl : position = 0 := by omega
      obtain ⟨task, alone⟩ := List.length_eq_one_iff.mp (Nat.le_antisymm one inside)
      obtain rfl : task = ⟨job, false⟩ := by simpa [alone] using here
      unfold log
      rw [alone, ← eventsAhead_ended, List.append_assoc]
      rfl
  · rfl

theorem log_collect (pool : Pool) : (pool.collect work).log work = pool.log work := by
  unfold collect
  split
  · next job running first =>
      split
      · next rendered done =>
          unfold log
          rw [first, eventsAhead_collected running _ done]
      · rfl
  · rfl

/-- No move changes what is told in the end if there is one job on its way at most. -/
theorem log_step (one : pool.running.length ≤ 1) (move : Move) :
    (pool.step work 1 move).log work = pool.log work := by
  unfold step
  split
  · rfl
  · cases move with
    | start =>
        dsimp only
        split
        · next free => exact log_start (List.length_eq_zero_iff.mp (Nat.lt_one_iff.mp free))
        · rfl
    | finish position => exact log_finish one position
    | collect => exact log_collect pool

theorem length_running_step (one : pool.running.length ≤ 1) (move : Move) :
    (pool.step work 1 move).running.length ≤ 1 := by
  unfold step
  split
  · exact one
  · cases move with
    | start =>
        dsimp only
        split
        · next free =>
            unfold start
            split
            · exact one
            · rw [List.length_append, List.length_singleton]
              exact free
        · exact one
    | finish position =>
        dsimp only
        unfold finish
        split
        · simpa using one
        · exact one
    | collect =>
        dsimp only
        unfold collect
        split
        · next job running first =>
            rw [first, List.length_cons] at one
            split
            · exact Nat.le_of_succ_le one
            · rwa [first, List.length_cons]
        · exact one

theorem log_foldl_step (one : pool.running.length ≤ 1) (schedule : List Move) :
    (schedule.foldl (step work 1) pool).log work = pool.log work := by
  induction schedule generalizing pool with
  | nil => rfl
  | cons move rest ih =>
      rw [List.foldl_cons, ih (length_running_step one move), log_step one]

theorem log_settle (pool : Pool) : (pool.settle work).log work = pool.log work := by
  fun_induction settle work pool with
  | case1 waiting job running collected events ih =>
      rw [ih, log, log, ← eventsAhead_ended, List.append_assoc]
      rfl
  | case2 waiting job running collected events rendered done ih =>
      rw [ih, log, log, eventsAhead_collected running waiting done]
  | case3 => rfl
  | case4 job waiting collected events ih =>
      rw [ih, log, log, eventsAhead, ← eventsAhead_started, List.append_assoc]
      rfl
  | case5 => rfl

theorem log_of_over (ended : Over work pool) : pool.log work = pool.events := by
  rcases ended with ⟨error, failed⟩ | ⟨stopped, empty⟩
  · obtain ⟨job, running, first, concluded⟩ := exists_failed failed
    rw [log, first, eventsAhead, concluded]
    exact List.append_nil _
  · rw [log, stopped, empty]
    exact List.append_nil _

end

end Pool

/-- With one job at once, all goes as it does one job after the other. -/
theorem doTogether_one (work : Work) (schedule : List Move) (jobs : List Job) :
    doTogether work 1 schedule jobs = doInOrder work jobs := by
  refine Prod.ext ?_ (doTogether_eq_doInOrder work 1 schedule jobs)
  let moved := schedule.foldl (Pool.step work 1) (.ofJobs jobs)
  have one : (Pool.ofJobs jobs).running.length ≤ 1 := Nat.zero_le 1
  calc
    (moved.settle work).events
      = (moved.settle work).log work := (Pool.log_of_over (Pool.over_settle moved)).symm
    _ = (Pool.ofJobs jobs).log work := by
        rw [Pool.log_settle, Pool.log_foldl_step one]
    _ = (doInOrder work jobs).1 := rfl

/-! ## Exports -/

section

variable {config : Config} {tree : FileTree} {chapters : List Chapter}

theorem ofChapters_eq (chapters : List Chapter) :
    Job.ofChapters chapters =
      chapters.mapIdx fun position chapter => ⟨1 + position, chapters.length, chapter⟩ := by
  unfold Job.ofChapters
  congr 1
  funext position chapter
  rw [Nat.add_comm]

theorem make_eq (found : Discovery.chapters tree config.settings.textPath = .ok chapters) :
    make config tree =
      let done := doInOrder (chapterWork config tree) (Job.ofChapters chapters)
      match done.2.bind (assemble config.settings tree) with
      | .error error => (.exportStarted chapters.length :: done.1, .error error)
      | .ok edition => (.exportStarted chapters.length :: done.1 ++
          [.exportFinished edition.stats.chapters edition.stats.notes], .ok edition) := by
  unfold make makeWith
  extract_lets settings
  rw [found]
  rfl

/-- An edition says how many chapters have been found. -/
theorem chapterCount_of_make {edition : Edition}
    (found : Discovery.chapters tree config.settings.textPath = .ok chapters)
    (made : (make config tree).2 = .ok edition) : edition.stats.chapters = chapters.length := by
  cases done : (doInOrder (chapterWork config tree) (Job.ofChapters chapters)).2 with
  | error error =>
      rw [(make_of_failed found done).1] at made
      cases made
  | ok rendered =>
      rw [make_of_rendered found done] at made
      obtain ⟨numbered, -, made⟩ := bind_eq_ok made
      obtain ⟨document, -, rfl⟩ := map_eq_ok made
      exact (reports_ofDocument _ document done).chapterCount

theorem tellsExport_make (found : Discovery.chapters tree config.settings.textPath = .ok chapters) :
    TellsExport ((pipeline config.settings tree).renderChapter config.settings.plainSyntax) chapters
      (make config tree) := by
  have renders : ∀ job : Job, chapterWork config tree job = (pipeline config.settings
      tree).renderChapter config.settings.plainSyntax job.chapter := fun _ => rfl
  have told := tells_doInOrder renders chapters.length 1 chapters
  have made := make_eq found
  rw [← ofChapters_eq] at told
  dsimp only at told made
  rcases told with ⟨rendered, done, tells⟩ | ⟨error, failed, tells⟩
  · rw [done] at made
    cases assembled : Except.bind (.ok rendered) (assemble config.settings tree) with
    | error error =>
        rw [assembled] at made
        exact made ▸ .unfinished tells
    | ok edition =>
        rw [assembled] at made
        dsimp only at made
        rw [chapterCount_of_make found (congrArg Prod.snd made)] at made
        exact made ▸ .finished tells
  · rw [failed] at made
    exact made ▸ .stopped tells

end

/-- Nothing is told if no chapters are found. Else an export tells how many there are, of each
chapter in its turn up to the first that fails, and of its own end exactly if there is an edition.
One chapter at once is told of in the same way. -/
theorem make_tells (config : Config) (tree : FileTree) :
    (match Discovery.chapters tree config.settings.textPath with
      | .error error => make config tree = ([], .error error)
      | .ok chapters =>
          let render := (pipeline config.settings tree).renderChapter config.settings.plainSyntax
          let (events, exported) := make config tree
          TellsExport render chapters (events, exported) ∧
            (events.Pairwise fun earlier _ => earlier.isChapterFailed = false) ∧
            EndsOnce chapters.length events exported) ∧
    (config.settings.concurrency = 1 →
      ∀ schedule, makeTogether schedule config tree = make config tree) := by
  constructor
  · cases found : Discovery.chapters tree config.settings.textPath with
    | error error => exact makeWith_of_undiscovered found
    | ok chapters =>
        have tells := tellsExport_make found
        exact ⟨tells, tells.pairwise, tells.endsOnce⟩
  · intro one schedule
    unfold makeTogether make
    simp only [one, doTogether_one]

def oneAtOnce : Config := ⟨{ concurrency := 1 }, by decide⟩

/-- Of three chapters the second fails: it is the last that is told of. -/
theorem make_tells_until_failure :
    let cause : BookError := .unreadable "./text/b.md" .notText
    let told : List Event := [.exportStarted 3, .chapterStarted 1 3 "a.md",
      .chapterRendered 1 3 "a.md" 75, .chapterStarted 2 3 "b.md", .chapterFailed 2 3 "b.md" cause]
    let schedule : List Move := [.start, .start, .finish 0, .collect]
    oneAtOnce.settings.concurrency = 1 ∧
      makeTogether schedule oneAtOnce unreadableBook = (told, .error (.chapter "b.md" cause)) ∧
      told.Pairwise fun earlier _ => earlier.isChapterFailed = false := by
  intro cause told schedule
  obtain ⟨tells, alike⟩ := make_tells oneAtOnce unreadableBook
  have found : Discovery.chapters unreadableBook oneAtOnce.settings.textPath =
      .ok unreadableChapters := chapters_unreadableBook
  have made : make oneAtOnce unreadableBook = (told, .error (.chapter "b.md" cause)) := by
    rw [make_eq found]
    decide +kernel
  rw [found, made] at tells
  exact ⟨rfl, (alike rfl schedule).trans made, tells.2.1⟩

end Bindery.Book
