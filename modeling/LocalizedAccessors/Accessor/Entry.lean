import LocalizedAccessors.Placeholder.Kind
import LocalizedAccessors.Swift.Identifier
import LocalizedAccessors.Text.Field

/-!
# Entries

An entry is one localized string seen as a Swift member. The last segment of its key names the
member and its argument labels, set apart by underscores: `greeting_name` is a member `greeting`
with the label `name`, and the labels `:` and `*` declare an argument without one. There are to be
as many labels as the value of the key has arguments.
-/

namespace LocalizedAccessors

/-- One declared argument of a member. -/
structure Binding where
  /-- The label at the place of call, if the argument has one. -/
  label : Option String
  /-- The name of the argument within the body of the member. -/
  privateName : String
  deriving DecidableEq, Repr

/-- The binding of the label at a position, as it stands in the key. -/
def Binding.ofPiece (index : Nat) (piece : String) : Binding where
  label := if piece = ":" ∨ piece = "*" then none else some (Swift.escapedLabel piece)
  privateName := "arg" ++ toString index

/-- The label and the private name as they are written in a parameter list. -/
def Binding.parameter (binding : Binding) : String :=
  binding.label.getD "_" ++ " " ++ binding.privateName

/-- A key whose labels and arguments differ in number, told by its location. -/
structure ArgumentMismatch where
  path : String
  /-- How many arguments the value takes. -/
  expected : Nat
  /-- How many labels the key has. -/
  found : Nat
  deriving DecidableEq, Repr

structure Entry where
  /-- The complete key, by which the string is looked up. -/
  key : String
  /-- The last segment of the key as written. -/
  identifier : String
  /-- The name of the member, escaped where Swift reserves it. -/
  name : String
  bindings : List Binding
  arguments : List ArgumentKind
  deriving DecidableEq, Repr

namespace Entry

/-- The bindings of the labels in the order they stand. -/
def bindingsOf (labels : List String) : List Binding :=
  labels.mapIdx Binding.ofPiece

/-- The entry of a key with the given last segment. The path only serves to report a mismatch. -/
def make (path key identifier : String) (arguments : List ArgumentKind) :
    Except ArgumentMismatch Entry :=
  let pieces := Text.pieces '_' identifier
  let bindings := bindingsOf pieces.tail
  if bindings.length = arguments.length then
    .ok ⟨key, identifier, Swift.escapedName (pieces.headD ""), bindings, arguments⟩
  else
    .error ⟨path, arguments.length, bindings.length⟩

/-- Whether the member is a constant rather than a function. -/
def isConstant (entry : Entry) : Bool := entry.arguments.isEmpty

/-- The parameter list of the member, such as `_ arg0: String, count arg1: Int`. -/
def parameterList (entry : Entry) : String :=
  ", ".intercalate <| List.zipWith (fun binding kind ↦ binding.parameter ++ ": " ++ kind.swiftType)
    entry.bindings entry.arguments

/-- The private names in the order of the arguments, such as `arg0, arg1`. -/
def formatArguments (entry : Entry) : String :=
  ", ".intercalate (entry.bindings.map Binding.privateName)

/-- The entry in a dump: its identifier, with the types of its arguments if it has any. -/
def summary (entry : Entry) : String :=
  if entry.isConstant then entry.identifier
  else
    entry.identifier ++ "(" ++ ", ".intercalate (entry.arguments.map ArgumentKind.swiftType) ++ ")"

end Entry

end LocalizedAccessors
