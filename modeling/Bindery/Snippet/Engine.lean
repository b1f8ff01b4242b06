import Bindery.Inset
import Bindery.Files.Path
import Bindery.Html.Construction.Document
import Bindery.Snippet.Directive
import Bindery.Snippet.Extract
import Bindery.Snippet.Highlight

/-!
# Snippets

A snippet stands between two markers of three at signs. Its code comes from a
file or from the snippet itself, and is highlighted in its place. Where the code
cannot be found, a message stands instead.
-/

set_option autoImplicit false

namespace Bindery.Snippet

/-- Reads the text of a file. -/
abbrev Reader := (path : String) → Except FileError String

structure Engine where
  /-- The directory of the files that headers name. -/
  codeRoot : String
  reader : Reader
  highlighter : Highlighter

def marker : List Char := "@@@".toList

/-- The part of a file that a directive asks for. -/
def Directive.select (directive : Directive) (content : List Char) :
    Except SnippetError (List Char) :=
  let reference := directive.reference.getD []
  match directive.mode with
  | .range => extractRange content reference
  | .block => extractBlock content reference
  | .wholeFile => .ok content
  | .inline => .ok content

namespace Engine

/-- The content of a file that a header names. -/
def readCode (engine : Engine) (file : List Char) : Except SnippetError (List Char) :=
  let file := String.ofList file
  match engine.reader (Files.Path.join engine.codeRoot file) with
  | .ok content => .ok content.toList
  | .error _ => .error (.missingFile file)

/-- The code of a snippet: from its file, or its own lines. -/
def resolve (engine : Engine) (directive : Directive) (body : List Char) :
    Except SnippetError (List Char) :=
  match directive.file with
  | none => .ok (trimLineFeeds (stripIndent body))
  | some file => do
      let content ← engine.readCode file
      let code ← directive.select content
      return trimLineFeeds (dropMarkLines code)

/-- The code of a snippet, or the message that stands for it. -/
def shownCode (engine : Engine) (directive : Directive) (body : List Char) : List Char :=
  match engine.resolve directive body with
  | .ok code => code
  | .error error => error.message.toList

end Engine

def caption (file : List Char) : Html.Node :=
  .element (.ofName "span" [("class", "filename")]) [.text ("./code/" ++ String.ofList file)]

/-- Puts a node first in the first element among these. -/
def prependInFirst (child : Html.Node) : List Html.Node → List Html.Node
  | [] => []
  | .element tag children :: rest => .element tag (child :: children) :: rest
  | node :: rest => node :: prependInFirst child rest

/-- Puts a caption first in the first element of the class `highlight`, or else in the
first element of the body. -/
def addCaption (file : List Char) (body : Html.Node) : Html.Node :=
  match Html.Tree.prependIn? (·.hasClass "highlight") (caption file) body with
  | some changed => changed
  | none =>
      match body with
      | .element tag children => .element tag (prependInFirst (caption file) children)
      | other => other

/-- Highlighted code with the name of its file. HTML without a body stays as it is. -/
def finish (html : String) (file : Option (List Char)) : String :=
  match Html.parseBody? html with
  | none => html
  | some body =>
      match file with
      | some file => (addCaption file body).inner
      | none => body.inner

namespace Engine

def language (plain : Bool) (directive : Directive) : String :=
  if plain then "text" else (directive.language.map String.ofList).getD "text"

/-- A snippet as HTML on one line. Textile has to pass it through. -/
def renderSnippet (engine : Engine) (format : Format) (plain : Bool) (inset : List Char) :
    List Char :=
  let (header, body) := Inset.headerAndBody inset
  let directive := Directive.parse header
  let code := String.ofList (engine.shownCode directive body)
  let highlighted := engine.highlighter code (language plain directive)
  let html := Inset.foldLines (finish highlighted directive.file).toList
  match format with
  | .textile => "<notextile>".toList ++ html ++ "</notextile>".toList
  | _ => html

def render (engine : Engine) (format : Format) (plain : Bool) (text : String) : String :=
  let parts := Inset.parts marker text.toList
  String.ofList <| parts.flatMap fun part =>
    match part with
    | .plain content => content
    | .inset inset => engine.renderSnippet format plain inset

end Engine

end Bindery.Snippet
