import Bindery.Book.Edition
import Bindery.Proofs.Book.Pool

/-!
# An edition does not depend on the schedule

Chapters may be rendered at once and end in any order: the edition is the one that
is made chapter by chapter, and so is the error. The first chapter that cannot be
rendered is the one that is named.
-/

set_option autoImplicit false

namespace Bindery.Book

open Files (FileTree)

def chapterWork (config : Config) (tree : FileTree) : Work := fun job =>
  (pipeline config.settings tree).renderChapter config.settings.plainSyntax job.chapter

section

variable {config : Config} {tree : FileTree} {chapters : List Chapter}

theorem makeWith_of_undiscovered
    {doAll : Work → List Job → List Event × Except BookError (List Rendered)} {error : BookError}
    (missing : Discovery.chapters tree config.settings.textPath = .error error) :
    makeWith doAll config tree = ([], .error error) := by
  unfold makeWith
  extract_lets settings
  rw [missing]

theorem makeWith_snd {doAll : Work → List Job → List Event × Except BookError (List Rendered)}
    (found : Discovery.chapters tree config.settings.textPath = .ok chapters) :
    (makeWith doAll config tree).2 =
      (doAll (chapterWork config tree) (Job.ofChapters chapters)).2.bind
        (assemble config.settings tree) := by
  unfold makeWith
  extract_lets settings
  rw [found]
  dsimp only
  split
  · next error failed => exact failed.symm
  · next edition done => exact done.symm

theorem make_snd (found : Discovery.chapters tree config.settings.textPath = .ok chapters) :
    (make config tree).2 =
      (doInOrder (chapterWork config tree) (Job.ofChapters chapters)).2.bind
        (assemble config.settings tree) :=
  makeWith_snd found

theorem makeTogether_snd (schedule : List Move) (config : Config) (tree : FileTree) :
    (makeTogether schedule config tree).2 = (make config tree).2 := by
  cases found : Discovery.chapters tree config.settings.textPath with
  | error error => rw [makeTogether, make, makeWith_of_undiscovered found,
      makeWith_of_undiscovered found]
  | ok chapters => rw [makeTogether, makeWith_snd found, make_snd found, doTogether_eq_doInOrder]

theorem length_ofChapters (chapters : List Chapter) :
    (Job.ofChapters chapters).length = chapters.length := by
  simp [Job.ofChapters]

theorem movesLeft_ofJobs (jobs : List Job) : (Pool.ofJobs jobs).movesLeft = 3 * jobs.length := by
  simp [Pool.ofJobs, Pool.movesLeft]

/-- The job of a chapter stands behind those of the chapters before it. -/
theorem exists_jobs (before : List Chapter) (chapter : Chapter) (after : List Chapter) :
    ∃ earlier job later, Job.ofChapters (before ++ chapter :: after) = earlier ++ job :: later ∧
      job.chapter = chapter ∧ ∀ other ∈ earlier, other.chapter ∈ before := by
  refine ⟨_, _, _, by rw [Job.ofChapters, List.mapIdx_append, List.mapIdx_cons], rfl, ?_⟩
  intro other member
  obtain ⟨index, inside, rfl⟩ := List.mem_mapIdx.mp member
  exact List.getElem_mem inside

/-- The first chapter that fails is the one that the error names. -/
theorem make_of_first_failure {before after : List Chapter} {failed : Chapter} {cause : BookError}
    (found : Discovery.chapters tree config.settings.textPath =
      .ok (before ++ failed :: after))
    (done : ∀ earlier ∈ before, ∃ html, (pipeline config.settings tree).renderChapter
      config.settings.plainSyntax earlier = .ok html)
    (fails : (pipeline config.settings tree).renderChapter config.settings.plainSyntax failed =
      .error cause) :
    (make config tree).2 = .error (.chapter failed.name cause) := by
  obtain ⟨earlier, job, later, split, rfl, own⟩ := exists_jobs before failed after
  have rendered : ∀ other ∈ earlier, ∃ rendered,
      other.conclude (chapterWork config tree other) = .ok rendered := by
    intro other member
    obtain ⟨html, ran⟩ := done other.chapter (own other member)
    exact ⟨other.rendered html, by rw [chapterWork, ran]; rfl⟩
  have concluded : job.conclude (chapterWork config tree job) =
      .error (.chapter job.chapter.name cause) := by
    rw [chapterWork, fails]
    rfl
  rw [make_snd found, split, doInOrder_of_first_failure rendered concluded]
  rfl

end

/-- Every schedule gives the edition, or the error, that is made chapter by chapter. So does every
run of allowed moves: it keeps to the limit and to the order of the chapters, has an end, and ends
with that result. The error names the first chapter that fails. -/
theorem makeTogether_eq_make (config : Config) (tree : FileTree) :
    (∀ schedule, (makeTogether schedule config tree).2 = (make config tree).2) ∧
    ∀ chapters, Discovery.chapters tree config.settings.textPath = .ok chapters →
      (∀ moves pool,
        Pool.Runs (chapterWork config tree) config.settings.concurrency
          (.ofJobs (Job.ofChapters chapters)) moves pool →
        pool.running.length ≤ config.settings.concurrency ∧
        pool.waiting <:+ Job.ofChapters chapters ∧
        moves.length ≤ 3 * chapters.length ∧
        ((∀ move, ¬ Pool.Allowed (chapterWork config tree) config.settings.concurrency pool move) →
          (pool.result (chapterWork config tree)).bind (assemble config.settings tree) =
            (make config tree).2)) ∧
      ∀ before failed after cause, chapters = before ++ failed :: after →
        (∀ earlier ∈ before, ∃ html, (pipeline config.settings tree).renderChapter
          config.settings.plainSyntax earlier = .ok html) →
        (pipeline config.settings tree).renderChapter config.settings.plainSyntax failed =
          .error cause →
        (make config tree).2 = .error (.chapter failed.name cause) := by
  refine ⟨fun schedule => makeTogether_snd schedule config tree, fun chapters found => ⟨?_, ?_⟩⟩
  · intro moves pool runs
    have length := runs.length_le
    rw [movesLeft_ofJobs, length_ofChapters] at length
    refine ⟨runs.within (Nat.zero_le _), runs.waiting_suffix, by omega, fun stuck => ?_⟩
    rw [runs.result_eq config.concurrency_pos stuck, Pool.outcome_ofJobs, make_snd found]
  · rintro before failed after cause rfl done fails
    exact make_of_first_failure found done fails

/-- A book of which the second and the third chapter are no text. -/
def unreadableBook : FileTree := .ofList [] [
  (["text", "c.md"], .file none),
  (["text", "b.md"], .file none),
  (["text", "a.md"], .file (some "One."))]

def threeAtOnce : Config := ⟨{ concurrency := 3 }, by decide⟩

def textChapter (name : String) : Chapter := ⟨name, ["./text/" ++ name]⟩

def unreadableChapters : List Chapter := ["a.md", "b.md", "c.md"].map textChapter

theorem chapters_unreadableBook :
    Discovery.chapters unreadableBook threeAtOnce.settings.textPath = .ok unreadableChapters := by
  have directory : unreadableBook.isDirectory threeAtOnce.settings.textPath = true := by
    decide
  have listed : unreadableBook.list threeAtOnce.settings.textPath = ["a.md", "b.md", "c.md"] := by
    decide
  have sorted : Discovery.sortedNames unreadableBook threeAtOnce.settings.textPath =
      ["a.md", "b.md", "c.md"] := by
    rw [Discovery.sortedNames, listed]
    exact List.mergeSort_of_pairwise (by decide)
  rw [Discovery.chapters, if_pos directory, sorted]
  decide

/-- Three jobs end in the opposite order, and the first one has been collected. -/
theorem runs_backwards {work : Work} {first : Job} {rendered : Rendered} (second third : Job)
    (done : first.conclude (work first) = .ok rendered) :
    ∃ pool, Pool.Runs work 3 (.ofJobs [first, second, third])
        [.start, .start, .start, .finish 2, .finish 1, .finish 0, .collect] pool ∧
      pool.running = [⟨second, true⟩, ⟨third, true⟩] := by
  refine ⟨?pool, ?runs, ?running⟩
  case runs =>
    iterate 3
      refine .move (.start rfl rfl (by simp [Pool.ofJobs])) ?_
      rw [Pool.step_start rfl rfl (by simp [Pool.ofJobs])]
    iterate 3
      refine .move (.finish rfl rfl) ?_
      rw [Pool.step_finish rfl rfl]
    refine .move (.collect rfl done) ?_
    rw [Pool.step_collect rfl done]
    exact .refl
  case running => rfl

/-- The third chapter is the first to end, with an error, but the error of the second one counts. -/
theorem makeTogether_names_earlier_failure :
    let schedule : List Move := [.start, .start, .start, .finish 2, .finish 1, .finish 0, .collect]
    let error : BookError := .chapter "b.md" (.unreadable "./text/b.md" .notText)
    let work := chapterWork threeAtOnce unreadableBook
    (∃ pool, Pool.Runs work 3 (.ofJobs (Job.ofChapters unreadableChapters)) schedule pool ∧
      (∀ move, ¬ Pool.Allowed work 3 pool move) ∧
      (pool.result work).bind (assemble threeAtOnce.settings unreadableBook) = .error error) ∧
    (makeTogether schedule threeAtOnce unreadableBook).2 = .error error := by
  intro schedule error work
  obtain ⟨scheduled, ordered⟩ := makeTogether_eq_make threeAtOnce unreadableBook
  obtain ⟨ended, failing⟩ := ordered unreadableChapters chapters_unreadableBook
  have done : ∃ html, (pipeline threeAtOnce.settings unreadableBook).renderChapter false
      (textChapter "a.md") = .ok html :=
    ⟨"<div class=\"chapter\">\n<div class=\"chapter-file\">\n<p>One.</p>\n\n</div>\n</div>",
      by decide +kernel⟩
  have fails : (pipeline threeAtOnce.settings unreadableBook).renderChapter false
      (textChapter "b.md") = .error (.unreadable "./text/b.md" .notText) := by
    decide +kernel
  have failed : (make threeAtOnce unreadableBook).2 = .error error := by
    refine failing [textChapter "a.md"] (textChapter "b.md") [textChapter "c.md"]
      (.unreadable "./text/b.md" .notText) rfl ?_ fails
    intro earlier member
    obtain rfl := List.mem_singleton.mp member
    exact done
  refine ⟨?_, (scheduled schedule).trans failed⟩
  let job (index : Nat) (name : String) : Job := ⟨index, 3, textChapter name⟩
  have first : ∃ rendered, (job 1 "a.md").conclude (work (job 1 "a.md")) = .ok rendered := by
    obtain ⟨html, ran⟩ := done
    exact ⟨(job 1 "a.md").rendered html, congrArg (job 1 "a.md").conclude ran⟩
  have second : (job 2 "b.md").conclude (work (job 2 "b.md")) = .error error :=
    congrArg (job 2 "b.md").conclude fails
  obtain ⟨rendered, concluded⟩ := first
  obtain ⟨pool, runs, running⟩ := runs_backwards (job 2 "b.md") (job 3 "c.md") concluded
  have stuck : ∀ move, ¬ Pool.Allowed work 3 pool move := by
    intro move allowed
    have fine := allowed.fine
    simp [Pool.failure?, running, second] at fine
  exact ⟨pool, runs, stuck, ((ended schedule pool runs).2.2.2 stuck).trans failed⟩

end Bindery.Book
