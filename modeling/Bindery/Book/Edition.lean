import Bindery.Book.Pool
import Bindery.Config
import Bindery.Discovery
import Bindery.Files.Write

/-!
# Editions

An edition is a whole book as HTML. Its chapters are found and rendered, their
notes are numbered over the whole book, and the changelog comes last.
-/

set_option autoImplicit false

namespace Bindery.Book

open Files (FileTree System)

/-- What an edition contains. -/
structure Stats where
  chapters : Nat
  /-- The files of the chapters. -/
  files : Nat
  /-- The notes, those of the changelog included. -/
  notes : Nat
  /-- The links to notes that are not there, those of the changelog included. -/
  danglingLinks : Nat
  deriving Repr, DecidableEq, Inhabited

/-- A whole book. -/
structure Edition where
  html : String
  chapters : List ChapterReport
  /-- The file of the changelog, if there is one. -/
  changelog : Option String
  stats : Stats
  deriving Repr, DecidableEq, Inhabited

/-- What renders the chapters of a book that lies in a tree. -/
def pipeline (settings : Settings) (tree : FileTree) : Pipeline where
  snippets := ⟨settings.codePath, tree.read, settings.highlighter⟩
  markup := .standard

def changelog? (settings : Settings) (tree : FileTree) : Option String :=
  if settings.includeChangelog then Discovery.changelog? tree settings.textPath else none

/-- A changelog as HTML, with its notes numbered from the counter on. Its code is
highlighted as plain text. -/
def renderChangelog (pipeline : Pipeline) (path : String) (counter : Footnote.Counter) :
    Except BookError Footnote.Reconciled :=
  match pipeline.renderFile true path with
  | .error cause => .error (.chapter "CHANGELOG" cause)
  | .ok html => (Footnote.reconcile (wrap "chapter changelog" html) counter).map (·.1)

def append (document addition : Footnote.Reconciled) : Footnote.Reconciled where
  html :=
    if document.html = "" then addition.html else document.html ++ separator ++ addition.html
  definitions := document.definitions + addition.definitions
  danglingLinks := document.danglingLinks + addition.danglingLinks

/-- A document with the changelog behind it, if there is one. -/
def withChangelog (pipeline : Pipeline) (changelog : Option String) :
    Footnote.Reconciled × Footnote.Counter → Except BookError Footnote.Reconciled
  | (document, counter) =>
      match changelog with
      | none => .ok document
      | some path => (renderChangelog pipeline path counter).map (append document)

/-- Puts rendered chapters together. -/
def assemble (settings : Settings) (tree : FileTree) (rendered : List Rendered) :
    Except BookError Edition := do
  let joined := String.intercalate separator (rendered.map (·.html))
  let changelog := changelog? settings tree
  let numbered ← Footnote.reconcile joined .start
  let document ← withChangelog (pipeline settings tree) changelog numbered
  let reports := rendered.map (·.report)
  return {
    html := document.html
    chapters := reports
    changelog
    stats := {
      chapters := reports.length
      files := (reports.flatMap (·.files)).length
      notes := document.definitions
      danglingLinks := document.danglingLinks } }

/-- Makes an edition with a way of doing all its jobs. -/
def makeWith (doAll : Work → List Job → List Event × Except BookError (List Rendered))
    (config : Config) (tree : FileTree) : List Event × Except BookError Edition :=
  let settings := config.settings
  match Discovery.chapters tree settings.textPath with
  | .error error => ([], .error error)
  | .ok chapters =>
      let work : Work := fun job =>
        (pipeline settings tree).renderChapter settings.plainSyntax job.chapter
      let (events, rendered) := doAll work (Job.ofChapters chapters)
      let started := .exportStarted chapters.length :: events
      match rendered.bind (assemble settings tree) with
      | .error error => (started, .error error)
      | .ok edition =>
          (started ++ [.exportFinished edition.stats.chapters edition.stats.notes], .ok edition)

/-- Makes an edition, one chapter after the other. -/
def make (config : Config) (tree : FileTree) : List Event × Except BookError Edition :=
  makeWith doInOrder config tree

/-- Makes an edition, with several chapters at once by a schedule. -/
def makeTogether (schedule : List Move) (config : Config) (tree : FileTree) :
    List Event × Except BookError Edition :=
  makeWith (fun work jobs => doTogether work config.settings.concurrency schedule jobs) config tree

/-- Writes a file, as far as the system that holds the tree lets it. -/
def writeOn (system : System) (tree : FileTree) (path contents : String) :
    FileTree × Except BookError Unit :=
  match tree.writeOn system path contents with
  | (tree, .ok ()) => (tree, .ok ())
  | (tree, .error cause) => (tree, .error (.unwritable path cause))

/-- Writes an edition to a file. A failed edition leaves the tree as it was. -/
def publishOn (system : System) (tree : FileTree) (path : String)
    (edition : Except BookError Edition) : FileTree × Except BookError Stats :=
  match edition with
  | .error error => (tree, .error error)
  | .ok edition =>
      let (tree, written) := writeOn system tree path edition.html
      (tree, written.map fun _ => edition.stats)

def write (tree : FileTree) (path contents : String) : FileTree × Except BookError Unit :=
  writeOn .calm tree path contents

def publish (tree : FileTree) (path : String) (edition : Except BookError Edition) :
    FileTree × Except BookError Stats :=
  publishOn .calm tree path edition

end Bindery.Book
