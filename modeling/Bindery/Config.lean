import Bindery.Error
import Bindery.Snippet.Highlight
import Bindery.Text.Quoted

/-!
# Configurations

What to export and how. Settings are checked once; a configuration consists of
settings without a fault.
-/

set_option autoImplicit false

namespace Bindery

/-- What can be chosen for an export. -/
structure Settings where
  /-- The directory of the book. -/
  rootDir : String := "."
  /-- Where chapters lie, seen from the root. -/
  textDir : String := "text"
  /-- Where code lies, seen from the root. -/
  codeDir : String := "code"
  /-- How many chapters may be rendered at once. -/
  concurrency : Nat := 4
  /-- Whether all code is highlighted as plain text. -/
  plainSyntax : Bool := false
  /-- Whether the changelog is put behind the chapters. -/
  includeChangelog : Bool := true
  highlighter : Snippet.Highlighter := Snippet.plainHighlighter
  /-- Whether somebody listens to the progress of the export. -/
  reportsProgress : Bool := false

namespace Settings

/-- What is wrong with a directory that has to lie below the root. -/
def directoryFault? (setting path : String) : Option ConfigError :=
  if path = "" then some (.emptyDirectory setting)
  else if Files.Path.isAbsolute path then some (.absoluteDirectory setting path)
  else none

def fault? (settings : Settings) : Option ConfigError :=
  if settings.concurrency = 0 then some .noConcurrency
  else
    (directoryFault? "text_dir" settings.textDir).or
      (directoryFault? "code_dir" settings.codeDir)

def textPath (settings : Settings) : String :=
  Files.Path.join settings.rootDir settings.textDir

def codePath (settings : Settings) : String :=
  Files.Path.join settings.rootDir settings.codeDir

def word (value : Bool) : String := if value then "true" else "false"

/-- Settings in words. Highlighter and listener are not shown. -/
def describe (settings : Settings) : String :=
  let listener :=
    if settings.reportsProgress then "Some(\"<dyn ExportProgressCallback>\")" else "None"
  "ExportConfig \x7b root_dir: " ++ Text.quoted settings.rootDir
    ++ ", text_dir: " ++ Text.quoted settings.textDir
    ++ ", code_dir: " ++ Text.quoted settings.codeDir
    ++ ", concurrency: " ++ toString settings.concurrency
    ++ ", plain_syntax: " ++ word settings.plainSyntax
    ++ ", include_changelog: " ++ word settings.includeChangelog
    ++ ", highlighter: \"<dyn Highlighter>\", progress_callback: " ++ listener ++ " \x7d"

end Settings

/-- Settings without a fault. -/
structure Config where
  settings : Settings
  sound : settings.fault? = none

namespace Config

/-- Accepts settings or says what is wrong with them. -/
def ofSettings (settings : Settings) : Except ConfigError Config :=
  match sound : settings.fault? with
  | none => .ok ⟨settings, sound⟩
  | some fault => .error fault

theorem concurrency_pos (config : Config) : 0 < config.settings.concurrency := by
  have sound := config.sound
  unfold Settings.fault? at sound
  split at sound
  · cases sound
  · omega

end Config

end Bindery
