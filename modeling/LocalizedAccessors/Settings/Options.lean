import LocalizedAccessors.Settings.Choice
import LocalizedAccessors.Text.Letter

/-!
# Generation options

Everything that shapes one generated file.
-/

namespace LocalizedAccessors

/-- Options for the shape of the Swift source. -/
structure SourceStyle where
  /-- The name of the outermost structure. -/
  rootName : String := "LocalizedString"
  access : AccessLevel := .exported
  /-- Whether strings are looked up in the bundle of a Swift package. -/
  package : Bool := false
  /-- The table that strings are looked up in, unless it is the default one. -/
  table : Option String := none
  deriving DecidableEq, Repr

structure GenerationOptions where
  style : SourceStyle := {}
  /-- Free text for the comment at the head of the file. -/
  message : Option String := none
  duplicates : DuplicatePolicy := .overwrite
  deriving DecidableEq, Repr

/-- Why a name cannot be the name of the outermost structure. -/
inductive RootNameFault where
  | empty
  | noIdentifier (name : String)
  deriving DecidableEq, Repr

def RootNameFault.message : RootNameFault → String
  | .empty => "Root name cannot be empty"
  | .noIdentifier name =>
    "Invalid root name: " ++ name ++ ". Expected a Swift identifier such as LocalizedString"

/-- Checks that a name is a plain identifier: a letter or an underscore, followed by letters,
numerals and underscores. -/
def checkRootName (name : String) : Except RootNameFault Unit :=
  match name.toList with
  | [] => .error .empty
  | first :: rest =>
    if (Text.isLetter first || first == '_')
        && rest.all fun c ↦ Text.isLetter c || Text.isNumeral c || c == '_' then .ok ()
    else .error (.noIdentifier name)

end LocalizedAccessors
