import LocalizedAccessors.Catalog.Format

/-!
# Input files

The files that a command works on, told apart by format. They are given on the command line, or by
the environment of a build script: one variable counts them, and one variable names each of them by
its number, from zero on. Tables of strings come before plural rules, so a plural rule wins over a
plain string wherever the two stand on the command line.
-/

namespace LocalizedAccessors

/-- The inputs of each format, in the order in which they are given. -/
structure InputFiles where
  strings : List String
  stringsdict : List String
  deriving DecidableEq, Repr

/-- The value of every variable that is set. -/
abbrev Environment := String → Option String

namespace InputFiles

def empty : InputFiles := ⟨[], []⟩

/-- One more file in front of the files of its format. -/
def cons (path : String) (format : SourceFormat) (inputs : InputFiles) : InputFiles :=
  match format with
  | .strings => { inputs with strings := path :: inputs.strings }
  | .stringsdict => { inputs with stringsdict := path :: inputs.stringsdict }

/-- Sorts files by the formats that their extensions tell. -/
def classify : List String → Except InputListFault InputFiles
  | [] => .ok empty
  | path :: rest =>
    match SourceFormat.ofPath? path with
    | none => .error (.unsupported path)
    | some format => (classify rest).map (cons path format)

/-- The files in the order in which they are merged. -/
def ordered (inputs : InputFiles) : List (String × SourceFormat) :=
  inputs.strings.map (fun path ↦ (path, .strings)) ++
    inputs.stringsdict.map (fun path ↦ (path, .stringsdict))

def size (inputs : InputFiles) : Nat := inputs.strings.length + inputs.stringsdict.length

def isEmpty (inputs : InputFiles) : Bool := inputs.size == 0

/-- The variable that counts the inputs. -/
def countVariable : String := "SCRIPT_INPUT_FILE_COUNT"

/-- The variable that names one input. -/
def fileVariable (index : Nat) : String := "SCRIPT_INPUT_FILE_" ++ toString index

/-- The number that a text stands for: decimal digits, with blanks around them and a plus sign
before them if need be, below 2^64. -/
def parseCount? (text : String) : Option Nat :=
  let digits := match Text.trim text.toList with
    | '+' :: rest => rest
    | cs => cs
  let number := Text.numberFrom 10 0 digits
  if !digits.isEmpty && digits.all Char.isDigit && number < UInt64.size then some number else none

/-- The files named by `count` variables from the number `index` on. -/
def namedFiles (environment : Environment) : (count index : Nat) →
    Except InputListFault (List String)
  | 0, _ => .ok []
  | count + 1, index =>
    match environment (fileVariable index) with
    | none => .error (.missingVariable (fileVariable index))
    | some path => (namedFiles environment count (index + 1)).map (path :: ·)

/-- The inputs that the environment names. -/
def ofEnvironment (environment : Environment) : Except InputListFault (List String) :=
  match environment countVariable with
  | none => .ok []
  | some text =>
    match parseCount? text with
    | none => .error (.invalidCount countVariable text)
    | some count => namedFiles environment count 0

/-- The given inputs, or those that the environment names if none are given. -/
def resolve (given : List String) (environment : Environment) :
    Except InputListFault InputFiles := do
  classify (← if given = [] then ofEnvironment environment else .ok given)

end InputFiles

end LocalizedAccessors
