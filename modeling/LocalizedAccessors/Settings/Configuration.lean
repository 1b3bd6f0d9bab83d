import LocalizedAccessors.Report.Notice
import LocalizedAccessors.Settings.Toml

/-!
# Configuration

Settings come from three layers: the defaults, a configuration file, and the command line, of which
the later ones win. Every setting may be left out of a layer. A file with a name that is no setting
is refused as a whole.
-/

namespace LocalizedAccessors

/-- The settings of one layer. -/
structure Configuration where
  rootName : Option String := none
  access : Option AccessLevel := none
  package : Option Bool := none
  table : Option String := none
  message : Option String := none
  duplicates : Option DuplicatePolicy := none
  deriving DecidableEq, Repr

namespace Configuration

/-- The names of all settings in a file. -/
def names : List String := ["root-name", "access", "package", "table", "message", "duplicates"]

/-- What counts as nothing under the name of a choice. -/
def isNothing (value : SettingValue) : Bool := value.isEmptyTable || value.isEmptyList

/-- The layer that a table of settings makes. -/
def ofSettings? (pairs : List (String × SettingValue)) : Option Configuration :=
  let setting {α : Type} (name : String) (read : SettingValue → Option α) : Option (Option α) :=
    SettingValue.setting? pairs name none fun value ↦ (read value).map some
  if pairs.all fun pair ↦ names.contains pair.1 then do
    let rootName ← setting "root-name" SettingValue.text?
    let access ← setting "access" (SettingValue.access? isNothing)
    let package ← setting "package" SettingValue.flag?
    let table ← setting "table" SettingValue.text?
    let message ← setting "message" SettingValue.text?
    let duplicates ← setting "duplicates" (SettingValue.duplicates? isNothing)
    return ⟨rootName, access, package, table, message, duplicates⟩
  else none

def toValue (configuration : Configuration) : List (String × SettingValue) :=
  let shown {α : Type} (write : α → SettingValue) (value : Option α) : SettingValue :=
    (value.map write).getD .null
  [("root-name", shown .text configuration.rootName),
    ("access", shown (fun level ↦ .text level.name) configuration.access),
    ("package", shown .flag configuration.package),
    ("table", shown .text configuration.table),
    ("message", shown .text configuration.message),
    ("duplicates", shown (fun policy ↦ .text policy.name) configuration.duplicates)]

/-- The layer of the file at a path. -/
def ofFile (files : FileSystem) (path : String) :
    Reported (Except ConfigurationFault Configuration) :=
  let text : Except StorageFault String := do
    (Text.Utf8.decode (← files.read path)).mapError fun _ ↦ .noText
  match text with
  | .error fault => return .error (.unreadable path fault)
  | .ok text =>
    match (Toml.settings? text).bind ofSettings? with
    | none => return .error (.malformed path)
    | some configuration => do
      Reported.report (.configured path)
      return .ok configuration

/-- The file that is used when none is named. -/
def defaultPath : String := "stringsgen.toml"

/-- The layer of the file that is named, or of the default file if there is one. -/
def load (files : FileSystem) (named : Option String) :
    Reported (Except ConfigurationFault Configuration) :=
  match named with
  | some path => ofFile files path
  | none =>
    if files.isFile defaultPath then ofFile files defaultPath else return .ok {}

/-- The options that two layers over the defaults make. Package lookup is on if either layer turns
it on. -/
def options (lower upper : Configuration) : GenerationOptions :=
  let defaults : SourceStyle := {}
  { style :=
      { rootName := (upper.rootName <|> lower.rootName).getD defaults.rootName
        access := (upper.access <|> lower.access).getD defaults.access
        package := upper.package.getD false || lower.package.getD defaults.package
        table := upper.table <|> lower.table <|> defaults.table }
    message := upper.message <|> lower.message
    duplicates := (upper.duplicates <|> lower.duplicates).getD .overwrite }

end Configuration

end LocalizedAccessors
