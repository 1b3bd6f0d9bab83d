/-!
# Digits

The ASCII digits of bases up to sixteen and the numbers they make.
-/

namespace LocalizedAccessors.Text

/-- The value of a digit of the base, letters in either case. -/
def digitValue? (base : Nat) (c : Char) : Option Nat :=
  let value? : Option Nat :=
    if '0' ≤ c ∧ c ≤ '9' then some (c.toNat - '0'.toNat)
    else if 'a' ≤ c ∧ c ≤ 'f' then some (c.toNat - 'a'.toNat + 10)
    else if 'A' ≤ c ∧ c ≤ 'F' then some (c.toNat - 'A'.toNat + 10)
    else none
  value?.filter (· < base)

def isHexDigit (c : Char) : Bool := (digitValue? 16 c).isSome

/-- The number that some digits make when they follow a number; what is no digit counts as zero. -/
def numberFrom (base value : Nat) (digits : List Char) : Nat :=
  digits.foldl (fun number c ↦ number * base + (digitValue? base c).getD 0) value

end LocalizedAccessors.Text
