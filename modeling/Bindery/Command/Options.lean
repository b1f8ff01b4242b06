import Bindery.Error
import Bindery.Text.Lines

/-!
# Options of the command

Arguments are read from left to right, and the first fault ends the reading.
What no argument says may be said by a variable of the environment.
-/

set_option autoImplicit false

namespace Bindery.Command

/-- What is either on or off. -/
inductive Switch where
  | plainSyntax
  | noChangelog
  | json
  | noProgress
  | verbose
  | quiet
  deriving Repr, DecidableEq, Inhabited

/-- What takes a value. -/
inductive Parameter where
  | output
  | concurrency
  deriving Repr, DecidableEq, Inhabited

/-- Something that can be set by name. -/
inductive Setting where
  | switch (switch : Switch)
  | parameter (parameter : Parameter)
  | help
  | version
  deriving Repr, DecidableEq, Inhabited

def Switch.all : List Switch := [.plainSyntax, .noChangelog, .json, .noProgress, .verbose, .quiet]

def Switch.name : Switch → String
  | .plainSyntax => "plain-syntax"
  | .noChangelog => "no-changelog"
  | .json => "json"
  | .noProgress => "no-progress"
  | .verbose => "verbose"
  | .quiet => "quiet"

def Switch.variable : Switch → String
  | .plainSyntax => "BOOKMILL_PLAIN_SYNTAX"
  | .noChangelog => "BOOKMILL_NO_CHANGELOG"
  | .json => "BOOKMILL_JSON"
  | .noProgress => "BOOKMILL_NO_PROGRESS"
  | .verbose => "BOOKMILL_VERBOSE"
  | .quiet => "BOOKMILL_QUIET"

def Parameter.name : Parameter → String
  | .output => "output"
  | .concurrency => "concurrency"

/-- The variable that may give the value of a parameter. -/
def Parameter.variable : Parameter → String
  | .output => "BOOKMILL_OUTPUT"
  | .concurrency => "BOOKMILL_CONCURRENCY"

def Parameter.usage : Parameter → String
  | .output => "--output <OUTPUT>"
  | .concurrency => "--concurrency <CONCURRENCY>"

def Setting.named : List (String × Setting) :=
  Switch.all.map (fun switch => (switch.name, .switch switch)) ++
    [("output", .parameter .output), ("concurrency", .parameter .concurrency),
      ("help", .help), ("version", .version)]

def Setting.ofLetter? : Char → Option Setting
  | 'o' => some (.parameter .output)
  | 'c' => some (.parameter .concurrency)
  | 'v' => some (.switch .verbose)
  | 'q' => some (.switch .quiet)
  | 'h' => some .help
  | 'V' => some .version
  | _ => none

/-- What is wrong with arguments or variables. -/
inductive Fault where
  | unexpected (argument : String)
  | repeated (usage : String)
  | missingValue (usage : String)
  | unexpectedValue (usage value : String)
  | badNumber (value : String)
  | badTruth (usage value : String)
  deriving Repr, DecidableEq, Inhabited

/-- Why the arguments ask for no export. -/
inductive Stop where
  | help
  | version
  | fault (fault : Fault)
  deriving Repr, DecidableEq, Inhabited

/-- What the arguments have said so far. -/
structure Given where
  root : Option String := none
  output : Option String := none
  concurrency : Option Nat := none
  switches : List Switch := []
  deriving Repr, DecidableEq, Inhabited

/-- The value of decimal digits, which must be there. -/
def digits? (digits : List Char) : Option Nat :=
  if digits ≠ [] ∧ digits.all Char.isDigit then
    some (digits.foldl (fun value digit => 10 * value + (digit.toNat - '0'.toNat)) 0)
  else none

/-- The largest number of chapters that may be rendered at once. -/
def maxConcurrency : Nat := UInt32.size - 1

/-- Reads a number of chapters. A plus may stand before it. -/
def concurrency? (text : String) : Option Nat :=
  let digits :=
    match text.toList with
    | '+' :: rest => rest
    | other => other
  (digits? digits).filter fun value => 1 ≤ value ∧ value ≤ maxConcurrency

namespace Given

def addRoot (given : Given) (text : String) : Except Stop Given :=
  if given.root.isSome then .error (.fault (.unexpected text))
  else if text = "" then .error (.fault (.missingValue "[ROOT]"))
  else .ok { given with root := some text }

def addSwitch (given : Given) (switch : Switch) : Except Stop Given :=
  if given.switches.contains switch then .error (.fault (.repeated ("--" ++ switch.name)))
  else .ok { given with switches := switch :: given.switches }

def addValue (given : Given) (parameter : Parameter) (text : String) : Except Stop Given :=
  match parameter with
  | .output =>
      if given.output.isSome then .error (.fault (.repeated parameter.usage))
      else if text = "" then .error (.fault (.missingValue parameter.usage))
      else .ok { given with output := some text }
  | .concurrency =>
      if given.concurrency.isSome then .error (.fault (.repeated parameter.usage))
      else
        match concurrency? text with
        | some value => .ok { given with concurrency := some value }
        | none => .error (.fault (.badNumber text))

end Given

/-- Whether an argument names a setting and is no value. A single hyphen is a value. -/
def looksLikeSetting (argument : String) : Bool :=
  match argument.toList with
  | '-' :: _ :: _ => true
  | _ => false

/-- The long name of an argument and the value behind the equals sign, if there is one. -/
def splitLong (argument : List Char) : String × Option String :=
  match Text.splitOnce '=' argument with
  | some (name, value) => (String.ofList name, some (String.ofList value))
  | none => (String.ofList argument, none)

/-- What is read from one argument: it is complete, or its value comes next. -/
inductive Progress where
  | complete (given : Given)
  | awaiting (given : Given) (parameter : Parameter)
  deriving Repr, Inhabited

def readLong (given : Given) (argument : List Char) : Except Stop Progress :=
  let (name, value) := splitLong argument
  match Setting.named.lookup name, value with
  | none, _ => .error (.fault (.unexpected ("--" ++ name)))
  | some (.parameter parameter), some value =>
      (given.addValue parameter value).map .complete
  | some (.parameter parameter), none => .ok (.awaiting given parameter)
  | some _, some value => .error (.fault (.unexpectedValue ("--" ++ name) value))
  | some (.switch switch), none => (given.addSwitch switch).map .complete
  | some .help, none => .error .help
  | some .version, none => .error .version

def readLetters (given : Given) : List Char → Except Stop Progress
  | [] => .ok (.complete given)
  | letter :: rest =>
      match Setting.ofLetter? letter with
      | none => .error (.fault (.unexpected (String.ofList ['-', letter])))
      | some .help => .error .help
      | some .version => .error .version
      | some (.switch switch) =>
          match given.addSwitch switch with
          | .ok given => readLetters given rest
          | .error stop => .error stop
      | some (.parameter parameter) =>
          match rest with
          | [] => .ok (.awaiting given parameter)
          | '=' :: value => (given.addValue parameter (String.ofList value)).map .complete
          | value => (given.addValue parameter (String.ofList value)).map .complete

/-- Reads the arguments. Behind two hyphens nothing names a setting. -/
def readArguments (given : Given) : List String → Except Stop Given
  | [] => .ok given
  | argument :: rest =>
      if argument = "--" then rest.foldlM Given.addRoot given
      else if looksLikeSetting argument then
        let read :=
          match argument.toList with
          | '-' :: '-' :: name => readLong given name
          | _ :: letters => readLetters given letters
          | [] => .ok (.complete given)
        match read, rest with
        | .error stop, _ => .error stop
        | .ok (.complete given), rest => readArguments given rest
        | .ok (.awaiting _ parameter), [] => .error (.fault (.missingValue parameter.usage))
        | .ok (.awaiting given parameter), value :: rest =>
            if looksLikeSetting value then .error (.fault (.missingValue parameter.usage))
            else
              match given.addValue parameter value with
              | .ok given => readArguments given rest
              | .error stop => .error stop
      else
        match given.addRoot argument with
        | .ok given => readArguments given rest
        | .error stop => .error stop

/-- The variables of the environment. -/
abbrev Environment := List (String × String)

/-- Turns a switch on if only a variable says so. -/
def addSwitchVariable (environment : Environment) (given : Given) (switch : Switch) :
    Except Stop Given :=
  if given.switches.contains switch then .ok given
  else
    match environment.lookup switch.variable with
    | none => .ok given
    | some "true" => given.addSwitch switch
    | some "false" => .ok given
    | some value => .error (.fault (.badTruth ("--" ++ switch.name) value))

/-- Gives a parameter its value if only a variable says it. -/
def addParameterVariable (environment : Environment) (given : Given) (parameter : Parameter) :
    Except Stop Given :=
  let known :=
    match parameter with
    | .output => given.output.isSome
    | .concurrency => given.concurrency.isSome
  match known, environment.lookup parameter.variable with
  | false, some value => given.addValue parameter value
  | _, _ => .ok given

/-- What is to be done, and how. -/
structure Options where
  root : String
  output : Option String
  concurrency : Nat
  switches : List Switch
  deriving Repr, DecidableEq, Inhabited

namespace Options

/-- Reads arguments, then variables, and fills in what nobody said. -/
def read (arguments : List String) (environment : Environment) : Except Stop Options := do
  let given ← readArguments {} arguments
  let given ← [Parameter.output, .concurrency].foldlM (addParameterVariable environment) given
  let given ← Switch.all.foldlM (addSwitchVariable environment) given
  return {
    root := given.root.getD "."
    output := given.output
    concurrency := given.concurrency.getD 4
    switches := given.switches }

def has (options : Options) (switch : Switch) : Bool := options.switches.contains switch

/-- Whether progress is shown: not if the output is to be quiet or to be read by a program. -/
def showsProgress (options : Options) : Bool :=
  !options.has .quiet && !options.has .noProgress && !options.has .json

end Options

end Bindery.Command
