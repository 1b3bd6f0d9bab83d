import LocalizedAccessors.Catalog.Basic
import LocalizedAccessors.PropertyList.PluralRule
import LocalizedAccessors.StringsTable.Encoding

/-!
# Source formats

The two formats that localized strings come in: strings tables, and property lists of plural rules.
A file tells its format by its extension, and either format gives a list of keys and values.
-/

namespace LocalizedAccessors

inductive SourceFormat where
  | strings
  | stringsdict
  deriving DecidableEq, Repr

namespace SourceFormat

/-- The name of the format, which is also the extension of its files. -/
def name : SourceFormat → String
  | strings => "strings"
  | stringsdict => "stringsdict"

/-- The format of a name. Blanks around it and the case of ASCII letters do not matter. -/
def parse (text : String) : Except SourceFailure SourceFormat :=
  match [strings, stringsdict].find? (·.name = Text.folded text) with
  | some format => .ok format
  | none => .error (.unknownFormat (Text.folded text))

/-- The format that the extension of a file tells. -/
def ofPath? (path : String) : Option SourceFormat := do
  (parse (← FilePath.extension? path)).toOption

end SourceFormat

/-- The keys and format strings of flattened plural rules. A rule without a format is left out. -/
def flattenedRules :
    List (String × PropertyList) → Reported (List (String × String))
  | [] => return []
  | (key, rule) :: rest =>
    match PluralRule.flatten? rule with
    | some format => do
      let flattened ← flattenedRules rest
      return (key, format) :: flattened
    | none => do
      Reported.report (.formatlessRule key)
      flattenedRules rest

namespace SourceFormat

def tablePairs (pairs : List StringsTable.Pair) : List (String × String) :=
  pairs.map fun pair ↦ (pair.key, pair.value)

/-- The pairs of a strings table, or the failure to be text. -/
def ofTable (pairs : Except Text.Utf8.Fault (List StringsTable.Pair)) :
    Reported (Except SourceFailure (List (String × String))) :=
  match pairs with
  | .ok pairs => return .ok (tablePairs pairs)
  | .error _ => return .error (.storage .noText)

/-- The pairs of a property list of plural rules. -/
def ofPropertyList (bytes : List UInt8) :
    Reported (Except SourceFailure (List (String × String))) :=
  match PropertyList.rootPairs bytes with
  | .ok rules => .ok <$> flattenedRules rules
  | .error fault => return .error (.propertyList fault)

/-- The pairs of a source that is given as bytes. -/
def pairsOfBytes (format : SourceFormat) (bytes : List UInt8) :
    Reported (Except SourceFailure (List (String × String))) :=
  match format with
  | strings => ofTable (StringsTable.ofUtf8 bytes)
  | stringsdict => ofPropertyList bytes

/-- The pairs of the source at a path. -/
def readPairs (format : SourceFormat) (files : FileSystem) (path : String) :
    Reported (Except SourceFailure (List (String × String))) :=
  match files.read path with
  | .error fault => return .error (.storage fault)
  | .ok bytes =>
    match format with
    | strings => ofTable (StringsTable.ofFile bytes)
    | stringsdict => ofPropertyList bytes

end SourceFormat

namespace Catalog

/-- Adds the pairs of a source that was read, unless it could not be read. -/
def addRead (catalog : Catalog) (origin : String)
    (pairs : Except SourceFailure (List (String × String))) :
    Reported (Catalog × Except SourceFailure Unit) :=
  match pairs with
  | .error failure => return (catalog, .error failure)
  | .ok pairs => do
    let (added, outcome) ← catalog.add origin pairs
    return (added, outcome.mapError .duplicateKey)

/-- Adds a source that is given as bytes. -/
def addBytes (catalog : Catalog) (origin : String) (format : SourceFormat) (bytes : List UInt8) :
    Reported (Catalog × Except SourceFailure Unit) := do
  catalog.addRead origin (← format.pairsOfBytes bytes)

/-- Adds the source at a path. -/
def addFile (catalog : Catalog) (files : FileSystem) (path : String) (format : SourceFormat) :
    Reported (Catalog × Except SourceFailure Unit) := do
  catalog.addRead path (← format.readPairs files path)

/-- Adds the source at a path in the format that its extension tells. -/
def addFileByExtension (catalog : Catalog) (files : FileSystem) (path : String) :
    Reported (Catalog × Except SourceFailure Unit) :=
  match SourceFormat.ofPath? path with
  | some format => catalog.addFile files path format
  | none => return (catalog, .error (.unknownFormat path))

end Catalog

end LocalizedAccessors
