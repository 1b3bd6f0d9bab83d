import LocalizedAccessors.Text.Field

/-!
# Keys

The dots of a key separate its segments. The last segment names an entry and the ones before it the
namespace around the entry; empty segments do not count. A key without a segment, or with a last
segment of underscores only, names nothing and is passed over.
-/

namespace LocalizedAccessors

/-- The identifiers of the namespaces around something, the outermost first. -/
abbrev Path := List String

/-- The dotted form of a path. -/
def Path.dotted (path : Path) : String := ".".intercalate path

/-- Where the entry of a key belongs. -/
structure Placement where
  path : Path
  /-- The last segment of the key. -/
  leaf : String
  deriving DecidableEq, Repr

/-- Why a key is passed over. -/
inductive Nameless where
  | noSegment
  | onlyUnderscores
  deriving DecidableEq, Repr

namespace Key

def segments (key : String) : List String := Text.pieces '.' key

/-- Where the entry of a key belongs, unless the key names nothing. -/
def place (key : String) : Except Nameless Placement :=
  match (segments key).getLast? with
  | none => .error .noSegment
  | some leaf =>
    if leaf.toList.all (· == '_') then .error .onlyUnderscores
    else .ok ⟨(segments key).dropLast, leaf⟩

end Key

end LocalizedAccessors
