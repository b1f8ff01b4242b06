import Bindery.Callout
import Bindery.Snippet.Engine

/-!
# Chapters

A chapter is a list of files that are rendered one after the other. Snippets come
first, so that callouts may hold code, and the markup of the rest comes last.
-/

set_option autoImplicit false

namespace Bindery

/-- The files of one chapter, in their order. -/
structure Chapter where
  name : String
  files : List String
  deriving Repr, DecidableEq, Inhabited

/-- What stands between two files and between two chapters. -/
def separator : String := "\n\n"

def wrap (className html : String) : String :=
  "<div class=\"" ++ className ++ "\">\n" ++ html ++ "\n</div>"

/-- Renders chapters. Their files and their code come from the same reader. -/
structure Pipeline where
  snippets : Snippet.Engine
  markup : Markup

namespace Pipeline

def renderText (pipeline : Pipeline) (plain : Bool) (format : Format) (text : String) :
    Except BookError String := do
  let withCode := pipeline.snippets.render format plain text
  let withCallouts ← Callout.render pipeline.markup format withCode
  pipeline.markup.render format withCallouts

/-- A file as HTML. Its extension tells the format. -/
def renderFile (pipeline : Pipeline) (plain : Bool) (path : String) : Except BookError String :=
  match pipeline.snippets.reader path with
  | .ok text => pipeline.renderText plain (.ofPath path) text
  | .error cause => .error (.unreadable path cause)

/-- A chapter as HTML, with a container around each file and around the whole. -/
def renderChapter (pipeline : Pipeline) (plain : Bool) (chapter : Chapter) :
    Except BookError String := do
  let parts ← chapter.files.mapM (pipeline.renderFile plain)
  return wrap "chapter" (String.intercalate separator (parts.map (wrap "chapter-file")))

end Pipeline

end Bindery
