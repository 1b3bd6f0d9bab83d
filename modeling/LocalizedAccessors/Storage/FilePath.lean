import LocalizedAccessors.Text.Field

/-!
# File paths

Paths as they are given, with their names separated by slashes. The components of a path leave out
what has no meaning for the place it tells: empty names, and dots except in front.
-/

namespace LocalizedAccessors.FilePath

def isAbsolute (path : String) : Bool := path.toList.head? == some '/'

/-- Everything that stands between slashes. -/
def names (path : String) : List String := Text.fields '/' path

/-- Whether a name leads on from a directory: neither the empty name nor a dot does. -/
def leadsOn (name : String) : Bool := name ≠ "" && name ≠ "."

def components (path : String) : List String :=
  match names path with
  | [] => []
  | first :: rest => (if first = "" then [] else [first]) ++ rest.filter leadsOn

/-- The path of the directory around the last component, as it stands in the path. It is empty if
this is where the path starts. -/
def enclosing (path : String) : String :=
  match names path with
  | [] => ""
  | first :: rest =>
    match rest.reverse.dropWhile (!leadsOn ·) with
    | [] => ""
    | _ :: before =>
      let kept := (before.dropWhile (!leadsOn ·)).reverse
      if first = "" ∧ kept = [] then "/" else "/".intercalate (first :: kept)

/-- The last component, unless it stands for a directory relative to others. -/
def fileName? (path : String) : Option String :=
  (components path).getLast?.filter fun name ↦ name ≠ "." ∧ name ≠ ".."

/-- What follows the last dot of the file name. A dot in front of all the rest does not count. -/
def extension? (path : String) : Option String := do
  let name := (← fileName? path).toList
  let reversed := name.reverse.takeWhile (· != '.')
  if reversed.length + 1 < name.length then return String.ofList reversed.reverse else none

end LocalizedAccessors.FilePath
