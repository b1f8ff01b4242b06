import Bindery.Document

/-!
# Jobs

Rendering one chapter of a book is a job. It tells when it begins and how it ends.
-/

set_option autoImplicit false

namespace Bindery.Book

/-- What happens during an export. -/
inductive Event where
  | exportStarted (total : Nat)
  | chapterStarted (index total : Nat) (name : String)
  | chapterRendered (index total : Nat) (name : String) (size : Nat)
  | chapterFailed (index total : Nat) (name : String) (cause : BookError)
  | exportFinished (total notes : Nat)
  deriving Repr, DecidableEq, Inhabited

/-- What is reported about a chapter. -/
structure ChapterReport where
  /-- The place among the chapters, from one on. -/
  index : Nat
  name : String
  files : List String
  /-- How many bytes the HTML of the chapter has before its notes are numbered. -/
  size : Nat
  deriving Repr, DecidableEq, Inhabited

/-- A chapter with its HTML. -/
structure Rendered where
  html : String
  report : ChapterReport
  deriving Repr, DecidableEq, Inhabited

/-- A chapter to be rendered, and its place among all of them. -/
structure Job where
  index : Nat
  total : Nat
  chapter : Chapter
  deriving Repr, DecidableEq, Inhabited

namespace Job

def ofChapters (chapters : List Chapter) : List Job :=
  chapters.mapIdx fun index chapter => ⟨index + 1, chapters.length, chapter⟩

def began (job : Job) : Event := .chapterStarted job.index job.total job.chapter.name

def ended (job : Job) : Except BookError String → Event
  | .ok html => .chapterRendered job.index job.total job.chapter.name html.utf8ByteSize
  | .error cause => .chapterFailed job.index job.total job.chapter.name cause

def rendered (job : Job) (html : String) : Rendered :=
  ⟨html, job.index, job.chapter.name, job.chapter.files, html.utf8ByteSize⟩

/-- What a result means for the book: a failed chapter is named. -/
def conclude (job : Job) : Except BookError String → Except BookError Rendered
  | .ok html => .ok (job.rendered html)
  | .error cause => .error (.chapter job.chapter.name cause)

end Job

/-- Renders the chapters of jobs, with one result for each job. -/
abbrev Work := Job → Except BookError String

/-- Does jobs one after the other, up to the first that fails. -/
def doInOrder (work : Work) : List Job → List Event × Except BookError (List Rendered)
  | [] => ([], .ok [])
  | job :: rest =>
      let result := work job
      match job.conclude result with
      | .ok rendered =>
          let (events, others) := doInOrder work rest
          (job.began :: job.ended result :: events, others.map (rendered :: ·))
      | .error error => ([job.began, job.ended result], .error error)

end Bindery.Book
