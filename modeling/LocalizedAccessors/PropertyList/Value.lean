/-!
# Property lists

The values of a property list. Only strings, dictionaries and arrays are told apart.
-/

namespace LocalizedAccessors

inductive PropertyList where
  | string (text : String)
  /-- Keys and values in the order of the document, repeated keys included. -/
  | dict (pairs : List (String × PropertyList))
  | array (items : List PropertyList)
  /-- A number, a date, data or a truth value. -/
  | other
  deriving Repr

namespace PropertyList

/-- The first value of a key, if this is a dictionary. -/
def get? (list : PropertyList) (key : String) : Option PropertyList :=
  match list with
  | dict pairs => pairs.lookup key
  | _ => none

def asString? : PropertyList → Option String
  | string text => some text
  | _ => none

end PropertyList

end LocalizedAccessors
