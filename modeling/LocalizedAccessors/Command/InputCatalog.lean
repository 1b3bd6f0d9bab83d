import LocalizedAccessors.Command.InputFiles

/-!
# The catalog of the inputs

All inputs are merged into one catalog. A strict merge ends at the first input that cannot be read;
a lenient one reports it and goes on as if it were empty. A key that must not be defined again ends
either.
-/

namespace LocalizedAccessors

/-- Checks that a path leads to a file that can be opened. -/
def checkInput (files : FileSystem) (path : String) : Except InputFault Unit :=
  if !files.exists? path then .error (.missing path)
  else if !files.isFile path then .error (.noFile path)
  else if !files.isReadable path then .error (.unreadable path)
  else .ok ()

namespace Catalog

/-- Merges one input. -/
def mergeInput (catalog : Catalog) (files : FileSystem) (strict : Bool) (path : String)
    (format : SourceFormat) : Reported (Except Failure Catalog) :=
  match checkInput files path with
  | .error fault =>
    if strict then return .error (.input fault)
    else do
      Reported.report (.skippedInput path fault)
      return .ok catalog
  | .ok () => do
    match ← catalog.addFile files path format with
    | (merged, .ok ()) => return .ok merged
    | (_, .error (.duplicateKey duplicate)) => return .error (.source (.duplicateKey duplicate))
    | (kept, .error failure) =>
      if strict then return .error (.unreadSource path failure)
      else
        Reported.report (.skippedSource path failure)
        return .ok kept

/-- Merges inputs one after another. -/
def mergeInputs (catalog : Catalog) (files : FileSystem) (strict : Bool) :
    List (String × SourceFormat) → Reported (Except Failure Catalog)
  | [] => return .ok catalog
  | (path, format) :: rest => do
    match ← catalog.mergeInput files strict path format with
    | .error failure => return .error failure
    | .ok merged => mergeInputs merged files strict rest

end Catalog

/-- The catalog of all inputs in the order in which they are merged. -/
def InputFiles.catalog (inputs : InputFiles) (files : FileSystem) (policy : DuplicatePolicy)
    (strict : Bool) : Reported (Except Failure Catalog) :=
  (Catalog.empty policy).mergeInputs files strict inputs.ordered

end LocalizedAccessors
