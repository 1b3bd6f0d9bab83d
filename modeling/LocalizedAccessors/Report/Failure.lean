import LocalizedAccessors.Accessor.Entry
import LocalizedAccessors.PropertyList.Read
import LocalizedAccessors.Settings.Options
import LocalizedAccessors.Storage.FileSystem

/-!
# Failures

The causes for which reading sources, merging them, or running a command fails, and the wording of
each.
-/

namespace LocalizedAccessors

/-- A key that is defined again where that is not allowed. -/
structure DuplicateKey where
  key : String
  /-- Where the further definition stands. -/
  origin : String
  deriving DecidableEq, Repr

/-- Why sources cannot be read, merged and turned into accessors. -/
inductive SourceFailure where
  | argumentMismatch (mismatch : ArgumentMismatch)
  | duplicateKey (duplicate : DuplicateKey)
  | unknownFormat (name : String)
  | propertyList (fault : PropertyList.Fault)
  | storage (fault : StorageFault)
  deriving DecidableEq, Repr

def ArgumentMismatch.message (mismatch : ArgumentMismatch) : String :=
  "string for \"" ++ mismatch.path ++ "\" does not contain the correct number of arguments: expected "
    ++ toString mismatch.expected ++ ", found " ++ toString mismatch.found

def DuplicateKey.message (duplicate : DuplicateKey) : String :=
  "duplicate key `" ++ duplicate.key ++ "` in " ++ duplicate.origin

def SourceFailure.message : SourceFailure → String
  | argumentMismatch mismatch => mismatch.message
  | duplicateKey duplicate => duplicate.message
  | unknownFormat name => "unknown format `" ++ name ++ "`"
  | propertyList fault => fault.message
  | storage fault => "I/O error: " ++ fault.message

/-- Why an input cannot be read as a file. -/
inductive InputFault where
  | missing (path : String)
  | noFile (path : String)
  | unreadable (path : String)
  deriving DecidableEq, Repr

def InputFault.message : InputFault → String
  | missing path => "File does not exist: " ++ path
  | noFile path => "Path is not a file: " ++ path
  | unreadable path => "Cannot read file: " ++ path

/-- Why a file cannot be written where it was asked for. -/
inductive OutputFault where
  | undeclared
  | blank
  | directory (path : String)
  | noDirectory (fault : StorageFault)
  | unwritable (path : String) (fault : StorageFault)
  deriving DecidableEq, Repr

def OutputFault.message : OutputFault → String
  | undeclared => "No output file declared"
  | blank => "Output path cannot be empty"
  | directory path => "Output path is a directory: " ++ path
  | noDirectory fault => "Cannot create output directory: " ++ fault.message
  | unwritable path fault =>
    "Failed to write " ++ path ++ ": " ++ (SourceFailure.storage fault).message

/-- Why the inputs of a command are not known. -/
inductive InputListFault where
  | unsupported (path : String)
  /-- The variable that counts the inputs holds no number. -/
  | invalidCount (name value : String)
  | missingVariable (name : String)
  deriving DecidableEq, Repr

def InputListFault.message : InputListFault → String
  | unsupported path =>
    "Unsupported input file: " ++ path ++ " (expected .strings or .stringsdict)"
  | invalidCount name value =>
    "Invalid " ++ name ++ ": expected a number, got `" ++ value ++ "`"
  | missingVariable name => "Missing environment variable " ++ name

/-- Why a configuration file cannot be used. -/
inductive ConfigurationFault where
  | unreadable (path : String) (fault : StorageFault)
  | malformed (path : String)
  deriving DecidableEq, Repr

def ConfigurationFault.message : ConfigurationFault → String
  | unreadable path fault => "Cannot read config file " ++ path ++ ": " ++ fault.message
  | malformed path => "Failed to parse config file " ++ path

/-- Why a command fails. -/
inductive Failure where
  | source (failure : SourceFailure)
  /-- A source that fails on its own, told with its path. -/
  | unreadSource (path : String) (failure : SourceFailure)
  | rootName (fault : RootNameFault)
  | input (fault : InputFault)
  | inputList (fault : InputListFault)
  | configuration (fault : ConfigurationFault)
  | output (fault : OutputFault)
  deriving DecidableEq, Repr

def Failure.message : Failure → String
  | source failure => failure.message
  | unreadSource path failure => "Failed to read " ++ path ++ ": " ++ failure.message
  | rootName fault => fault.message
  | input fault => fault.message
  | inputList fault => fault.message
  | configuration fault => fault.message
  | output fault => fault.message

end LocalizedAccessors
