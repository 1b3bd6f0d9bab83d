import LocalizedAccessors.Settings.Choice

/-!
# Options

The options of the command line. Each is known by a long name and perhaps a letter, and takes a
value or none. Which of them are known depends on where they stand: before the command, or after
it.
-/

namespace LocalizedAccessors

/-- Where an argument stands: before any command, or after one. -/
inductive Scope where
  | program
  | generate
  | check
  deriving DecidableEq, Repr

/-- An option without a value. -/
inductive Flag where
  | verbose
  | quiet
  | help
  | version
  | package
  | strict
  /-- Prints the namespace tree. -/
  | debug
  deriving DecidableEq, Repr

/-- An option with a value. -/
inductive ValueOption where
  | configuration
  | rootName
  | access
  | table
  | message
  | duplicates
  | output
  deriving DecidableEq, Repr

/-- The names that an option is called by. -/
structure OptionName where
  long : String
  letter : Option Char := none
  deriving DecidableEq, Repr

namespace Flag

def name : Flag → OptionName
  | verbose => ⟨"verbose", some 'v'⟩
  | quiet => ⟨"quiet", some 'q'⟩
  | help => ⟨"help", some 'h'⟩
  | version => ⟨"version", some 'V'⟩
  | package => ⟨"package", none⟩
  | strict => ⟨"strict", none⟩
  | debug => ⟨"debug", none⟩

/-- The flags that are known in a scope. -/
def known : Scope → List Flag
  | .program => [verbose, quiet, help, version]
  | .generate => [verbose, quiet, help, package, strict, debug]
  | .check => [verbose, quiet, help, package, strict]

end Flag

namespace ValueOption

def name : ValueOption → OptionName
  | configuration => ⟨"config", none⟩
  | rootName => ⟨"root-name", none⟩
  | access => ⟨"access", none⟩
  | table => ⟨"table", none⟩
  | message => ⟨"message", some 'm'⟩
  | duplicates => ⟨"on-duplicate", none⟩
  | output => ⟨"output", some 'o'⟩

/-- The options with a value that are known in a scope. -/
def known : Scope → List ValueOption
  | .program => []
  | .generate => [configuration, rootName, access, table, message, duplicates, output]
  | .check => [configuration, rootName, access, table, message, duplicates]

end ValueOption

/-- Any option. -/
inductive CommandOption where
  | flag (flag : Flag)
  | valued (option : ValueOption)
  deriving DecidableEq, Repr

namespace CommandOption

def name : CommandOption → OptionName
  | flag f => f.name
  | valued option => option.name

/-- All options that are known in a scope. -/
def known (scope : Scope) : List CommandOption :=
  (Flag.known scope).map flag ++ (ValueOption.known scope).map valued

def ofLong? (scope : Scope) (long : String) : Option CommandOption :=
  (known scope).find? (·.name.long = long)

def ofLetter? (scope : Scope) (letter : Char) : Option CommandOption :=
  (known scope).find? (·.name.letter = some letter)

end CommandOption

/-- What one argument looks like. -/
inductive Argument where
  /-- Two dashes alone: nothing after them is an option. -/
  | separator
  /-- Two dashes and a name, perhaps with an equals sign and a value. -/
  | long (name : String) (value : Option String)
  /-- One dash and letters. -/
  | letters (cs : List Char)
  | plain (text : String)
  deriving DecidableEq, Repr

/-- A dash alone is plain. -/
def Argument.ofString (text : String) : Argument :=
  match text.toList with
  | ['-', '-'] => .separator
  | '-' :: '-' :: rest =>
    let name := String.ofList (rest.takeWhile (· != '='))
    match rest.dropWhile (· != '=') with
    | [] => .long name none
    | _ :: value => .long name (some (String.ofList value))
  | '-' :: c :: rest => .letters (c :: rest)
  | _ => .plain text

end LocalizedAccessors
