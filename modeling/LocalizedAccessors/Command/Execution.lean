import LocalizedAccessors.Accessor.Generation
import LocalizedAccessors.Command.InputCatalog
import LocalizedAccessors.Command.Invocation

/-!
# Executions

What an invocation does to a file system. Both actions draw the same product from the inputs;
`check` tells its size, and `generate` writes it to a file.
-/

namespace LocalizedAccessors

/-- What a successful execution did. -/
inductive Outcome where
  /-- There were no inputs. -/
  | noInputs
  /-- The output was given the content, and `written` tells whether it had to. -/
  | generated (written : Bool) (entries : Nat)
  | checked (keys entries : Nat)
  deriving DecidableEq, Repr

/-- All that an execution leaves behind. -/
structure Execution where
  files : FileSystem
  printed : String := ""
  outcome : Except Failure Outcome

/-- What the inputs give. -/
structure Product where
  catalog : Catalog
  generated : Generated
  deriving DecidableEq, Repr

namespace InputFiles

/-- Merges the inputs and generates the file for them. -/
def product (inputs : InputFiles) (files : FileSystem) (options : GenerationOptions)
    (strict : Bool) : Reported (Except Failure Product) :=
  match checkRootName options.style.rootName with
  | .error fault => return .error (.rootName fault)
  | .ok () => do
    match ← inputs.catalog files options.duplicates strict with
    | .error failure => return .error failure
    | .ok catalog =>
      match ← generate catalog options with
      | .error mismatch => return .error (.source (.argumentMismatch mismatch))
      | .ok generated => return .ok ⟨catalog, generated⟩

/-- The line that tells the size of a product. -/
def sizeLine (inputs : InputFiles) (product : Product) : String :=
  let tree := product.generated.tree
  "✅ " ++ toString product.catalog.size ++ " keys in " ++ toString inputs.size ++ " files: "
    ++ toString tree.entries.length ++ " accessors in " ++ toString tree.namespaces.length
    ++ " namespaces\n"

/-- Tells the size of what the inputs give. -/
def check (inputs : InputFiles) (files : FileSystem) (options : GenerationOptions)
    (strict : Bool) : Reported Execution :=
  if inputs.isEmpty then
    return ⟨files, "No input files to check\n", .ok .noInputs⟩
  else do
    match ← inputs.product files options strict with
    | .error failure => return ⟨files, "", .error failure⟩
    | .ok product =>
      return ⟨files, inputs.sizeLine product,
        .ok (.checked product.catalog.size product.generated.tree.entries.length)⟩

end InputFiles

/-- Makes sure that a file can be placed at a path, as far as that shows beforehand. The directory
that the file is to be in is made if it is missing. -/
def prepareOutput (files : FileSystem) (path : String) : FileSystem × Except OutputFault Unit :=
  if Text.trim path.toList = [] then (files, .error .blank)
  else if files.isDirectory path then (files, .error (.directory path))
  else if files.hasEnclosing path then (files, .ok ())
  else
    let (made, outcome) := files.ensureEnclosing path
    (made, outcome.mapError .noDirectory)

/-- Writes generated accessors to a path, unless they are there already. -/
def Generated.writeTo (generated : Generated) (files : FileSystem) (path : String)
    (printsTree : Bool) : Reported Execution :=
  match files.update path (Text.Utf8.encode generated.contents) with
  | (after, .error fault) => return ⟨after, "", .error (.output (.unwritable path fault))⟩
  | (after, .ok written) => do
    if written then Reported.report (.outputWritten path)
    else
      Reported.report (.unchangedFile path)
      Reported.report (.outputUnchanged path)
    return ⟨after, if printsTree then generated.tree.dump else "",
      .ok (.generated written generated.tree.entries.length)⟩

namespace InputFiles

/-- Writes what the inputs give to a path. -/
def writeProduct (inputs : InputFiles) (files : FileSystem) (path : String)
    (options : GenerationOptions) (strict printsTree : Bool) : Reported Execution :=
  match prepareOutput files path with
  | (prepared, .error fault) => return ⟨prepared, "", .error (.output fault)⟩
  | (prepared, .ok ()) =>
    if inputs.isEmpty then do
      Reported.report .noInputs
      return ⟨prepared, "", .ok .noInputs⟩
    else do
      match ← inputs.product prepared options strict with
      | .error failure => return ⟨prepared, "", .error failure⟩
      | .ok product => product.generated.writeTo prepared path printsTree

end InputFiles

namespace Invocation

/-- Acts on inputs. -/
def act (invocation : Invocation) (files : FileSystem) (inputs : InputFiles)
    (options : GenerationOptions) : Reported Execution :=
  match invocation.action with
  | .check => inputs.check files options invocation.strict
  | .generate none _ => return ⟨files, "", .error (.output .undeclared)⟩
  | .generate (some path) printsTree =>
    inputs.writeProduct files path options invocation.strict printsTree

/-- Carries out an invocation: the configuration is read first, then the inputs are looked up, and
then the action is taken. -/
def run (invocation : Invocation) (files : FileSystem) (environment : Environment) :
    Reported Execution := do
  match ← Configuration.load files invocation.configuration with
  | .error fault => return ⟨files, "", .error (.configuration fault)⟩
  | .ok file =>
    match InputFiles.resolve invocation.inputs environment with
    | .error fault => return ⟨files, "", .error (.inputList fault)⟩
    | .ok inputs => invocation.act files inputs (file.options invocation.settings)

end Invocation

end LocalizedAccessors
