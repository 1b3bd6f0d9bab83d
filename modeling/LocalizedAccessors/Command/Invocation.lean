import LocalizedAccessors.Command.InputFiles
import LocalizedAccessors.Command.Usage
import LocalizedAccessors.Settings.Configuration

/-!
# Invocations

What a command line asks for. Arguments are read from left to right. An option whose value is to
follow stays open until its value and then the next argument of another kind has been seen, and
only then is its value looked at; so of two faults the first to be looked at is told, which need
not be the first on the line.
-/

namespace LocalizedAccessors

/-- What to do with the inputs. -/
inductive Action where
  /-- Write a file of accessors, and print the namespace tree if that is asked for. -/
  | generate (output : Option String) (printsTree : Bool)
  /-- Only report whether generation would succeed. -/
  | check
  deriving DecidableEq, Repr

structure Invocation where
  action : Action
  inputs : List String
  /-- The configuration file, unless it is the default one. -/
  configuration : Option String
  /-- The settings of the command line. -/
  settings : Configuration
  strict : Bool
  /-- The least level of notices to be shown, if any are. -/
  shown : Option Level
  deriving DecidableEq, Repr

/-- What has been given so far in one scope. -/
structure Given where
  inputs : List String := []
  configuration : Option String := none
  settings : Configuration := {}
  output : Option String := none
  flags : List Flag := []
  /-- The option that is still open, with its value if that is there. -/
  pending : Option (ValueOption × Option String) := none
  deriving DecidableEq, Repr

namespace Given

/-- What becomes of an option that may be given once, and of its value. -/
def once {α : Type} (option : ValueOption) (before : Option α) (value : Except UnknownChoice α) :
    Except UsageStop (Option α) :=
  if before.isSome then .error (.repeatedOption (.valued option))
  else
    match value with
    | .ok value => .ok (some value)
    | .error fault => .error (.refusedValue option fault)

/-- Gives an option its value. -/
def assign (given : Given) (option : ValueOption) (text : String) : Except UsageStop Given :=
  let settings := given.settings
  match option with
  | .configuration =>
    return { given with configuration := ← once option given.configuration (.ok text) }
  | .output => return { given with output := ← once option given.output (.ok text) }
  | .rootName =>
    return { given with
      settings := { settings with rootName := ← once option settings.rootName (.ok text) } }
  | .access =>
    return { given with
      settings :=
        { settings with access := ← once option settings.access (AccessLevel.parse text) } }
  | .table =>
    return { given with
      settings := { settings with table := ← once option settings.table (.ok text) } }
  | .message =>
    return { given with
      settings := { settings with message := ← once option settings.message (.ok text) } }
  | .duplicates =>
    return { given with
      settings :=
        { settings with
          duplicates := ← once option settings.duplicates (DuplicatePolicy.parse text) } }

/-- Closes the option that is open. -/
def settle (given : Given) : Except UsageStop Given :=
  match given.pending with
  | none => .ok given
  | some (option, none) => .error (.missingValue option)
  | some (option, some text) => { given with pending := none }.assign option text

/-- Takes a flag. Only `verbose` may be repeated. -/
def raise (given : Given) (flag : Flag) : Except UsageStop Given := do
  let given ← given.settle
  match flag with
  | .help => throw .help
  | .version => throw .version
  | _ =>
    if flag ≠ .verbose ∧ flag ∈ given.flags then throw (.repeatedOption (.flag flag))
    return { given with flags := given.flags ++ [flag] }

/-- Opens an option whose value is to follow. -/
def expect (given : Given) (option : ValueOption) : Except UsageStop Given := do
  return { ← given.settle with pending := some (option, none) }

/-- Takes an option with the value that is joined to it. -/
def take (given : Given) (option : ValueOption) (value : String) : Except UsageStop Given := do
  (← given.settle).assign option value

/-- Takes an option that is given by its long name. -/
def readLong (scope : Scope) (given : Given) (long : String) (value : Option String) :
    Except UsageStop Given :=
  match CommandOption.ofLong? scope long, value with
  | none, _ => .error (.unknownArgument ("--" ++ long))
  | some (.flag flag), none => given.raise flag
  | some (.flag flag), some _ => .error (.needlessValue flag)
  | some (.valued option), none => given.expect option
  | some (.valued option), some value => given.take option value

/-- Takes options that are given by their letters. What follows the letter of an option with a
value is that value, after an equals sign or without one. -/
def readLetters (scope : Scope) (given : Given) : List Char → Except UsageStop Given
  | [] => .ok given
  | letter :: rest =>
    match CommandOption.ofLetter? scope letter, rest with
    | none, _ => .error (.unknownArgument (String.ofList ['-', letter]))
    | some (.flag flag), _ => do readLetters scope (← given.raise flag) rest
    | some (.valued option), [] => given.expect option
    | some (.valued option), '=' :: value => given.take option (String.ofList value)
    | some (.valued option), value => given.take option (String.ofList value)

/-- Takes inputs. -/
def addInputs (given : Given) (paths : List String) : Except UsageStop Given := do
  let given ← given.settle
  return { given with inputs := given.inputs ++ paths }

/-- Takes what does not look like an option: a value if one is to follow, else an input. -/
def readPlain (given : Given) (text : String) : Except UsageStop Given :=
  match given.pending with
  | some (option, none) => .ok { given with pending := some (option, some text) }
  | _ => given.addInputs [text]

/-- Checks what was given in a scope as a whole. -/
def finish (given : Given) : Except UsageStop Given :=
  if .verbose ∈ given.flags ∧ .quiet ∈ given.flags then .error .verboseAndQuiet else .ok given

/-- Takes all arguments after a command. -/
def readCommand (scope : Scope) (given : Given) : List String → Except UsageStop Given
  | [] => do (← given.settle).finish
  | text :: rest => do
    match Argument.ofString text with
    | .separator => (← given.addInputs rest).finish
    | .long name value => readCommand scope (← given.readLong scope name value) rest
    | .letters cs => readCommand scope (← given.readLetters scope cs) rest
    | .plain text => readCommand scope (← given.readPlain text) rest

end Given

namespace Invocation

/-- The variable that names the output unless the command line does. -/
def outputVariable : String := "SCRIPT_OUTPUT_FILE_0"

/-- The least level of notices to be shown. Of the flags before and after the command, the later
`verbose` ones count. -/
def shownLevel (program command : List Flag) : Option Level :=
  let verbosity :=
    if .verbose ∈ command then command.count .verbose else program.count .verbose
  if .quiet ∈ program ++ command then none
  else
    match verbosity with
    | 0 => some .warn
    | 1 => some .info
    | _ => some .debug

/-- The invocation of a command after the flags before it. -/
def ofCommand (program : Given) (scope : Scope) (arguments : List String)
    (environment : Environment) : Except UsageStop Invocation := do
  let given ← Given.readCommand scope {} arguments
  let program ← program.finish
  let action : Action :=
    if scope = .generate then
      .generate (given.output <|> environment outputVariable) (.debug ∈ given.flags)
    else .check
  return {
    action
    inputs := given.inputs
    configuration := given.configuration
    settings :=
      { given.settings with package := if .package ∈ given.flags then some true else none }
    strict := .strict ∈ given.flags
    shown := shownLevel program.flags given.flags }

/-- The scope that the name of a command opens. -/
def command? : String → Option Scope
  | "generate" => some .generate
  | "check" => some .check
  | _ => none

/-- What a request for help about some commands comes to. -/
def helpAbout : List String → UsageStop
  | [] => .help
  | name :: rest =>
    match rest with
    | [] => if name = "help" ∨ (command? name).isSome then .help else .unknownCommand name
    | next :: _ =>
      if name = "help" ∨ (command? name).isSome then .unknownCommand next
      else .unknownCommand name

/-- Reads a command line from some argument on, with the flags before it. -/
def ofArguments (environment : Environment) (given : Given) :
    List String → Except UsageStop Invocation
  | [] => .error (if given.flags = [] then .nothingAsked else .missingCommand)
  | text :: rest => do
    match Argument.ofString text with
    | .long name value => ofArguments environment (← given.readLong .program name value) rest
    | .letters cs => ofArguments environment (← given.readLetters .program cs) rest
    | .separator =>
      match rest with
      | [] => ofArguments environment given rest
      | name :: _ =>
        if name = "help" ∨ (command? name).isSome then throw (.unknownArgument name)
        else throw (.unknownCommand name)
    | .plain name =>
      match command? name with
      | some scope => ofCommand given scope rest environment
      | none => throw (if name = "help" then helpAbout rest else .unknownCommand name)

/-- The invocation that a command line asks for. -/
def parse (arguments : List String) (environment : Environment) : Except UsageStop Invocation :=
  ofArguments environment {} arguments

end Invocation

end LocalizedAccessors
