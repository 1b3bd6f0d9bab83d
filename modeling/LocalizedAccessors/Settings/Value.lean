import LocalizedAccessors.Settings.Options

/-!
# Settings as data

Options can be given as a table of named values, and written as one. Missing names take their
defaults. A style may also be given as the list of its values. The name of a choice may also stand
alone as the key of a table with nothing under it; what counts as nothing depends on the notation
of the table.
-/

namespace LocalizedAccessors

/-- A value in a table of settings. -/
inductive SettingValue where
  | text (value : String)
  | flag (value : Bool)
  | null
  | list (items : List SettingValue)
  | table (pairs : List (String × SettingValue))
  /-- A value of a sort that no setting has. -/
  | other
  deriving Repr, Inhabited

namespace SettingValue

def isNull : SettingValue → Bool
  | null => true
  | _ => false

def isEmptyTable : SettingValue → Bool
  | table [] => true
  | _ => false

def isEmptyList : SettingValue → Bool
  | list [] => true
  | _ => false

def text? : SettingValue → Option String
  | text value => some value
  | _ => none

def flag? : SettingValue → Option Bool
  | flag value => some value
  | _ => none

/-- A text that may be missing. -/
def optionalText? : SettingValue → Option (Option String)
  | text value => some (some value)
  | null => some none
  | _ => none

/-- The name of a choice. -/
def choiceName? (isNothing : SettingValue → Bool) : SettingValue → Option String
  | text value => some value
  | table [(name, value)] => if isNothing value then some name else none
  | _ => none

def access? (isNothing : SettingValue → Bool) (value : SettingValue) : Option AccessLevel := do
  AccessLevel.named? (← value.choiceName? isNothing)

def duplicates? (isNothing : SettingValue → Bool) (value : SettingValue) :
    Option DuplicatePolicy := do
  DuplicatePolicy.named? (← value.choiceName? isNothing)

/-- The setting of a name, or its default if there is no such name. -/
def setting? {α : Type} (pairs : List (String × SettingValue)) (name : String) (default : α)
    (read : SettingValue → Option α) : Option α :=
  match pairs.lookup name with
  | none => some default
  | some value => read value

/-- The style in a table, in which other names do not matter. -/
def style? (isNothing : SettingValue → Bool) (pairs : List (String × SettingValue)) :
    Option SourceStyle := do
  let defaults : SourceStyle := {}
  let rootName ← setting? pairs "root-name" defaults.rootName text?
  let access ← setting? pairs "access" defaults.access (access? isNothing)
  let package ← setting? pairs "package" defaults.package flag?
  let table ← setting? pairs "table" defaults.table optionalText?
  return ⟨rootName, access, package, table⟩

end SettingValue

namespace SourceStyle

/-- The names of the settings of a style, in the order in which a list gives them. -/
def settingNames : List String := ["root-name", "access", "package", "table"]

/-- Reads a style from a table or from a list, which may end early. -/
def ofValue? : SettingValue → Option SourceStyle
  | .table pairs => SettingValue.style? SettingValue.isNull pairs
  | .list items =>
    if items.length ≤ settingNames.length then
      SettingValue.style? SettingValue.isNull (settingNames.zip items)
    else none
  | _ => none

def toValue (style : SourceStyle) : List (String × SettingValue) :=
  [("root-name", .text style.rootName), ("access", .text style.access.name),
    ("package", .flag style.package), ("table", (style.table.map .text).getD .null)]

end SourceStyle

namespace GenerationOptions

/-- Reads options from a table, in which the names of the style stand beside the others. -/
def ofValue? : SettingValue → Option GenerationOptions
  | .table pairs => do
    let style ← SettingValue.style? (fun value ↦ value.isNull || value.isEmptyTable) pairs
    let message ← SettingValue.setting? pairs "message" none SettingValue.optionalText?
    let duplicates ← SettingValue.setting? pairs "duplicates" .overwrite
      (SettingValue.duplicates? SettingValue.isNull)
    return ⟨style, message, duplicates⟩
  | _ => none

def toValue (options : GenerationOptions) : List (String × SettingValue) :=
  options.style.toValue ++
    [("message", (options.message.map .text).getD .null),
      ("duplicates", .text options.duplicates.name)]

end GenerationOptions

end LocalizedAccessors
