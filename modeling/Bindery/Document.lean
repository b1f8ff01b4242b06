import Bindery.Chapter
import Bindery.Footnote.Reconcile

/-!
# Documents

Chapters are rendered one by one, joined in their order, and their footnotes are
numbered over the whole.
-/

set_option autoImplicit false

namespace Bindery

namespace Pipeline

/-- A chapter as HTML, or an error that names it. -/
def renderNamed (pipeline : Pipeline) (plain : Bool) (chapter : Chapter) :
    Except BookError String :=
  match pipeline.renderChapter plain chapter with
  | .ok html => .ok html
  | .error cause => .error (.chapter chapter.name cause)

/-- Chapters as one document, with the notes numbered from the counter on. -/
def renderDocument (pipeline : Pipeline) (plain : Bool) (chapters : List Chapter)
    (counter : Footnote.Counter) : Except BookError (Footnote.Reconciled × Footnote.Counter) := do
  let fragments ← chapters.mapM (pipeline.renderNamed plain)
  Footnote.reconcile (String.intercalate separator fragments) counter

end Pipeline

end Bindery
