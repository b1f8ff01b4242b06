import Bindery.Book.Edition
import Bindery.Command.Json
import Bindery.Command.Options

/-!
# What the command prints
-/

set_option autoImplicit false

namespace Bindery.Command

def programName : String := "bookmill"

def versionText : String := programName ++ " 0.1.0\n"

def usageLine : String := "Usage: " ++ programName ++ " [OPTIONS] [ROOT]\n"

def helpText : String :=
  "Pre-process annotated chapter sources into one HTML book\n\n" ++ usageLine ++
    "\nOptions:\n" ++
    "  -o, --output <OUTPUT>            Write HTML to this file instead of stdout\n" ++
    "  -c, --concurrency <CONCURRENCY>  Number of chapters rendered concurrently\n" ++
    "      --plain-syntax               Render every snippet with the plain text language\n" ++
    "      --no-changelog               Do not append text/CHANGELOG.*\n" ++
    "      --json                       Output structured JSON instead of HTML\n" ++
    "      --no-progress                Disable progress bar\n" ++
    "  -v, --verbose                    Enable debug logs\n" ++
    "  -q, --quiet                      Suppress all output except errors\n" ++
    "  -h, --help                       Print help\n" ++
    "  -V, --version                    Print version\n"

def Fault.message : Fault → String
  | .unexpected argument => "unexpected argument '" ++ argument ++ "' found\n\n" ++ usageLine
  | .repeated usage =>
      "the argument '" ++ usage ++ "' cannot be used multiple times\n\n" ++ usageLine
  | .missingValue usage => "a value is required for '" ++ usage ++ "' but none was supplied\n"
  | .unexpectedValue usage value =>
      "unexpected value '" ++ value ++ "' for '" ++ usage ++ "' found; no more were expected\n\n"
        ++ usageLine
  | .badNumber value =>
      "invalid value '" ++ value ++ "' for '" ++ Parameter.concurrency.usage ++ "'\n"
  | .badTruth usage value =>
      "invalid value '" ++ value ++ "' for '" ++ usage ++ "'\n  [possible values: true, false]\n"

def Fault.report (fault : Fault) : String :=
  "error: " ++ fault.message ++ "\nFor more information, try '--help'.\n"

/-- An error and what lies behind it, as messages. -/
def causes : BookError → List String
  | .unreadable path cause => [(BookError.unreadable path cause).message, cause.message]
  | .unwritable path cause => [(BookError.unwritable path cause).message, cause.message]
  | .chapter name cause => (BookError.chapter name cause).message :: causes cause
  | error => [error.message]

def indent (margin message : String) : String :=
  String.ofList <| message.toList.flatMap fun c =>
    if c = '\n' then '\n' :: margin.toList else [c]

/-- A number at the right of the given width. -/
def padLeft (width : Nat) (text : String) : String :=
  String.ofList (List.replicate (width - text.length) ' ') ++ text

/-- What failed, and why. Several causes are numbered. -/
def failureReport (context : String) (causes : List String) : String :=
  let lines :=
    match causes with
    | [cause] => ["    " ++ indent "    " cause]
    | causes => causes.mapIdx fun index cause =>
        padLeft 5 (toString index) ++ ": " ++ indent "       " cause
  "Error: " ++ context ++ "\n\nCaused by:\n" ++ String.intercalate "\n" lines ++ "\n"

def styled (style text : String) : String := "\x1b[" ++ style ++ "m" ++ text ++ "\x1b[0m"

def bold (text : String) : String := styled "1" text
def dim (text : String) : String := styled "2" text
def green (text : String) : String := styled "32" text
def cyan (text : String) : String := styled "36" text

/-- What is shown of the progress of an export when it is complete. -/
def progressReport : Book.Event → String
  | .exportFinished total notes =>
      green "✔" ++ " " ++ bold (toString total) ++ " chapters rendered, " ++ toString notes ++
        " footnotes\n"
  | _ => ""

/-- What an edition contains, and where it went. The time is in milliseconds. -/
def summary (stats : Book.Stats) (elapsed : Nat) (path : Option String) : String :=
  let sign := if stats.danglingLinks = 0 then green "✔" else cyan "⚠"
  let target :=
    match path with
    | some path => "  →  " ++ bold path
    | none => ""
  sign ++ "  " ++ toString stats.chapters ++ " chapters  " ++ toString stats.files ++ " files  " ++
    toString elapsed ++ "ms" ++ target ++ "\n   " ++ dim (toString stats.notes) ++
    " footnotes  /  " ++ dim (toString stats.danglingLinks) ++ " dangling links\n"

def chapterJson (report : Book.ChapterReport) : Json :=
  .record [("index", .number report.index), ("name", .text report.name),
    ("files", .list (report.files.map .text)), ("html_len", .number report.size)]

def statsJson (stats : Book.Stats) : Json :=
  .record [("total_chapters", .number stats.chapters), ("total_files", .number stats.files),
    ("footnotes", .number stats.notes), ("dangling_footnote_links", .number stats.danglingLinks)]

def editionJson (edition : Book.Edition) : Json :=
  .record [("html", .text edition.html), ("chapters", .list (edition.chapters.map chapterJson)),
    ("changelog", (edition.changelog.map Json.text).getD .null),
    ("stats", statsJson edition.stats)]

end Bindery.Command
