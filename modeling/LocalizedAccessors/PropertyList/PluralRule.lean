import LocalizedAccessors.PropertyList.Value
import LocalizedAccessors.Text.DecimalDigit

/-!
# Plural rules

A plural rule is a dictionary with a format string, in which `%#@count@` or `%2$#@count@` refers to
a variable, and with a dictionary for every variable. A rule is flattened by putting a plain
placeholder of the variable's value type in the place of every reference. References are looked for
from left to right and do not overlap; one whose variable declares no type stays as it is written.
-/

namespace LocalizedAccessors.PluralRule

open PropertyList

def formatKey : String := "NSStringLocalizedFormatKey"

def valueTypeKey : String := "NSStringFormatValueTypeKey"

/-- A reference to a variable. -/
structure Reference where
  /-- The position with its dollar sign, or nothing. -/
  position : List Char
  name : List Char
  deriving DecidableEq, Repr

/-- A reference as it is written. -/
def Reference.written (reference : Reference) : List Char :=
  '%' :: reference.position ++ ['#', '@'] ++ reference.name ++ ['@']

/-- A position `digits$`, and the rest after it. -/
def splitPosition (cs : List Char) : List Char × List Char :=
  match cs.takeWhile Text.isDecimalDigit, cs.dropWhile Text.isDecimalDigit with
  | d :: digits, '$' :: rest => (d :: digits ++ ['$'], rest)
  | _, _ => ([], cs)

/-- The characters that cannot stand in the name of a variable. -/
def isMark (c : Char) : Bool := c == '%' || c == '#' || c == '@'

/-- The reference whose percent sign was just read, and the rest after it. -/
def reference? (cs : List Char) : Option (Reference × List Char) :=
  match (splitPosition cs).2 with
  | '#' :: '@' :: named =>
    match named.takeWhile (!isMark ·), named.dropWhile (!isMark ·) with
    | c :: name, '@' :: rest => some (⟨(splitPosition cs).1, c :: name⟩, rest)
    | _, _ => none
  | _ => none

theorem splitPosition_length_le (cs : List Char) : (splitPosition cs).2.length ≤ cs.length := by
  unfold splitPosition
  split
  · next rest _ h =>
    have := (List.dropWhile_suffix (l := cs) Text.isDecimalDigit).length_le
    rw [h, List.length_cons] at this
    exact Nat.le_of_succ_le this
  · exact Nat.le_refl _

theorem reference?_length_lt {cs rest : List Char} {reference : Reference}
    (h : reference? cs = some (reference, rest)) : rest.length < cs.length := by
  unfold reference? at h
  have hle := splitPosition_length_le cs
  split at h
  · next named hnamed =>
    rw [hnamed] at hle
    split at h
    · next hdrop =>
      have := (List.dropWhile_suffix (l := named) (!isMark ·)).length_le
      rw [hdrop] at this
      simp only [Option.some.injEq, Prod.mk.injEq] at h
      simp only [← h.2, List.length_cons] at this hle ⊢
      omega
    · simp at h
  · simp at h

/-- The type that a rule declares for a variable. -/
def valueType? (rule : PropertyList) (name : String) : Option String := do
  (← (← rule.get? name).get? valueTypeKey).asString?

/-- What a reference becomes in the flattened format. -/
def substituted (rule : PropertyList) (reference : Reference) : List Char :=
  match valueType? rule (String.ofList reference.name) with
  | some type => '%' :: reference.position ++ type.toList
  | none => reference.written

/-- A format string with its references substituted. -/
def flattenFormat (rule : PropertyList) : List Char → List Char
  | [] => []
  | '%' :: cs =>
    match _h : reference? cs with
    | some (reference, rest) => substituted rule reference ++ flattenFormat rule rest
    | none => '%' :: flattenFormat rule cs
  | c :: cs => c :: flattenFormat rule cs
termination_by cs => cs.length
decreasing_by
  · exact Nat.lt_succ_of_lt (reference?_length_lt _h)
  · exact Nat.lt_succ_self _
  · exact Nat.lt_succ_self _

/-- The single format string that a rule comes to, if it has a format. -/
def flatten? (rule : PropertyList) : Option String := do
  let format ← (← rule.get? formatKey).asString?
  return String.ofList (flattenFormat rule format.toList)

end LocalizedAccessors.PluralRule
