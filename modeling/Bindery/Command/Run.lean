import Bindery.Command.Report

/-!
# Running the command

The command makes an edition and prints it, or writes it to a file.
-/

set_option autoImplicit false

namespace Bindery.Command

open Files (FileTree)

/-- What is left when the command has ended. -/
structure Outcome where
  status : Nat
  out : String
  err : String
  tree : FileTree

def settings (options : Options) : Settings where
  rootDir := options.root
  concurrency := options.concurrency
  plainSyntax := options.has .plainSyntax
  includeChangelog := !options.has .noChangelog
  reportsProgress := options.showsProgress

/-- An edition in the form that options ask for. -/
def editionText (options : Options) (edition : Book.Edition) : String :=
  if options.has .json then (editionJson edition).pretty else edition.html

/-- A text with a line feed at its end. -/
def endLine (text : String) : String :=
  if text.toList.getLast? = some '\n' then text else text ++ "\n"

/-- Hands out an edition. The time that it took is in milliseconds. -/
def deliver (options : Options) (elapsed : Nat) (tree : FileTree) (edition : Book.Edition) :
    Outcome :=
  let text := editionText options edition
  match options.output with
  | some path =>
      match Book.write tree path text with
      | (tree, .error error) =>
          ⟨1, "", failureReport ("Failed to write " ++ path) (causes error), tree⟩
      | (tree, .ok ()) =>
          let report := summary edition.stats elapsed (some path)
          ⟨0, "", if options.has .quiet then "" else report, tree⟩
  | none =>
      let short := options.has .quiet || options.showsProgress || options.has .json
      ⟨0, endLine text, if short then "" else summary edition.stats elapsed none, tree⟩

def makeEdition (options : Options) (tree : FileTree) :
    List Book.Event × Except String Book.Edition :=
  match Config.ofSettings (settings options) with
  | .error cause =>
      ([], .error (failureReport "Invalid configuration" (causes (.config cause))))
  | .ok config =>
      match Book.makeTogether [] config tree with
      | (events, .error error) => (events, .error (failureReport "Export failed" (causes error)))
      | (events, .ok edition) => (events, .ok edition)

/-- Reports on an edition that has been made, or on why it has not. -/
def conclude (options : Options) (elapsed : Nat) (tree : FileTree) :
    List Book.Event × Except String Book.Edition → Outcome
  | (events, made) =>
      let progress :=
        if options.showsProgress then String.join (events.map progressReport) else ""
      match made with
      | .error report => ⟨1, "", progress ++ report, tree⟩
      | .ok edition =>
          let outcome := deliver options elapsed tree edition
          { outcome with err := progress ++ outcome.err }

/-- What is printed when the arguments ask for no export. -/
def stopped (tree : FileTree) : Stop → Outcome
  | .help => ⟨0, helpText, "", tree⟩
  | .version => ⟨0, versionText, "", tree⟩
  | .fault fault => ⟨2, "", fault.report, tree⟩

def run (arguments : List String) (environment : Environment) (elapsed : Nat) (tree : FileTree) :
    Outcome :=
  match Options.read arguments environment with
  | .error stop => stopped tree stop
  | .ok options => conclude options elapsed tree (makeEdition options tree)

end Bindery.Command
