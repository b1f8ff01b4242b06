import Bindery.Format

/-!
# What can go wrong

An error of a file system, an error that stops a book, and an error of a single
snippet, which only shows in its place.
-/

set_option autoImplicit false

namespace Bindery

/-- Why a file could not be read or written. -/
inductive FileError where
  | missing
  | exists
  | notDirectory
  | isDirectory
  | busy
  | tooManyLinks
  | nameTooLong
  | invalidArgument
  | nulInName
  | notText
  /-- The source of the files gives a reason of its own. -/
  | refused (reason : String)
  deriving Repr, DecidableEq, Inhabited

def FileError.message : FileError → String
  | .missing => "No such file or directory (os error 2)"
  | .exists => "File exists (os error 17)"
  | .notDirectory => "Not a directory (os error 20)"
  | .isDirectory => "Is a directory (os error 21)"
  | .busy => "Device or resource busy (os error 16)"
  | .tooManyLinks => "Too many levels of symbolic links (os error 40)"
  | .nameTooLong => "File name too long (os error 36)"
  | .invalidArgument => "Invalid argument (os error 22)"
  | .nulInName => "file name contained an unexpected NUL byte"
  | .notText => "stream did not contain valid UTF-8"
  | .refused reason => reason

/-- Why a configuration cannot be used. -/
inductive ConfigError where
  | noConcurrency
  | emptyDirectory (setting : String)
  | absoluteDirectory (setting path : String)
  deriving Repr, DecidableEq, Inhabited

def ConfigError.message : ConfigError → String
  | .noConcurrency => "Concurrency must be ≥ 1"
  | .emptyDirectory setting => setting ++ " must not be empty"
  | .absoluteDirectory setting path =>
      setting ++ " must be relative to the book root, got '" ++ path ++ "'"

/-- Why a book cannot be made. -/
inductive BookError where
  | noTextDirectory (path : String)
  | unreadable (path : String) (cause : FileError)
  | markup (format : Format) (detail : String)
  /-- A document of frames has no body. -/
  | noBody
  | chapter (name : String) (cause : BookError)
  | unwritable (path : String) (cause : FileError)
  | config (cause : ConfigError)
  deriving Repr, DecidableEq, Inhabited

def BookError.message : BookError → String
  | .noTextDirectory path =>
      "Text directory not found: '" ++ path ++ "'\nExpected chapter files under <root>/text."
  | .unreadable path cause => "Failed to read '" ++ path ++ "': " ++ cause.message
  | .markup format detail => format.name ++ " rendering failed: " ++ detail
  | .noBody => "HTML serialisation failed: parsed document has no <body>"
  | .chapter name cause => "Chapter '" ++ name ++ "' failed: " ++ cause.message
  | .unwritable path cause => "Failed to write output file '" ++ path ++ "': " ++ cause.message
  | .config cause => "Invalid configuration: " ++ cause.message

/-- Why the code of a snippet cannot be shown. -/
inductive SnippetError where
  | missingFile (path : String)
  | missingBlock (name : String)
  | invalidRange (reference : String)
  deriving Repr, DecidableEq, Inhabited

/-- The text that takes the place of the code. -/
def SnippetError.message : SnippetError → String
  | .missingFile path => "[missing 'code/" ++ path ++ "' file]"
  | .missingBlock name => "[missing '" ++ name ++ "' block name]"
  | .invalidRange reference => "[invalid '" ++ reference ++ "' line range]"

end Bindery
