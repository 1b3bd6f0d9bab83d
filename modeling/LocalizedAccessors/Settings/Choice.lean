import LocalizedAccessors.Text.Blank

/-!
# Choices

The two settings that are picked from fixed lists of names, how they are read from a command line
and how they are named in a file.
-/

namespace LocalizedAccessors

/-- The access modifier of every generated declaration. -/
inductive AccessLevel where
  /-- Declarations can be used from other modules. -/
  | exported
  /-- The level that Swift gives a declaration without a modifier. -/
  | internal
  deriving DecidableEq, Repr

/-- What happens to a key that is defined more than once. -/
inductive DuplicatePolicy where
  /-- The last definition wins. -/
  | overwrite
  /-- Every further definition is an error. -/
  | reject
  deriving DecidableEq, Repr

/-- A name that is on no list, folded for comparison. -/
inductive UnknownChoice where
  | access (name : String)
  | duplicates (name : String)
  deriving DecidableEq, Repr

def UnknownChoice.message : UnknownChoice → String
  | .access name =>
    "unknown access level `" ++ name ++ "`, expected `public` or `internal`"
  | .duplicates name =>
    "unknown duplicate policy `" ++ name ++ "`, expected `overwrite` or `reject`"

namespace AccessLevel

def name : AccessLevel → String
  | .exported => "public"
  | .internal => "internal"

/-- The level with exactly this name. -/
def named? (name : String) : Option AccessLevel :=
  [.exported, .internal].find? (·.name = name)

/-- The level that a user asks for. Blanks around the name and the case of ASCII letters do not
matter. -/
def parse (text : String) : Except UnknownChoice AccessLevel :=
  match named? (Text.folded text) with
  | some level => .ok level
  | none => .error (.access (Text.folded text))

/-- The modifier as it precedes a declaration. -/
def modifier : AccessLevel → String
  | .exported => "public "
  | .internal => ""

end AccessLevel

namespace DuplicatePolicy

def name : DuplicatePolicy → String
  | overwrite => "overwrite"
  | reject => "reject"

/-- The policy with exactly this name. -/
def named? (name : String) : Option DuplicatePolicy :=
  [overwrite, reject].find? (·.name = name)

/-- The policy that a user asks for. Besides its name, `error` also stands for rejection; blanks
around the name and the case of ASCII letters do not matter. -/
def parse (text : String) : Except UnknownChoice DuplicatePolicy :=
  let folded := Text.folded text
  match if folded = "error" then some reject else named? folded with
  | some policy => .ok policy
  | none => .error (.duplicates folded)

end DuplicatePolicy

end LocalizedAccessors
