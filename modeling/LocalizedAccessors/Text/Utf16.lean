import LocalizedAccessors.Text.Utf8

/-!
# UTF-16

Byte strings as UTF-16 in either byte order. A surrogate without its partner becomes U+FFFD, and
so does a last byte that is half a unit; a leading surrogate right at the end takes such a byte
with it, so that the two give one U+FFFD.
-/

namespace LocalizedAccessors.Text.Utf16

inductive ByteOrder where
  | little
  | big
  deriving DecidableEq, Repr

def ByteOrder.unit (order : ByteOrder) (first second : UInt8) : Nat :=
  match order with
  | .little => first.toNat + second.toNat * 256
  | .big => first.toNat * 256 + second.toNat

/-- The units of a byte string, and whether a single byte is left over at the end. -/
def units (order : ByteOrder) : List UInt8 → List Nat × Bool
  | first :: second :: bytes =>
    ((order.unit first second) :: (units order bytes).1, (units order bytes).2)
  | [_] => ([], true)
  | [] => ([], false)

def isLeading (unit : Nat) : Bool := 0xD800 ≤ unit && unit < 0xDC00

def isTrailing (unit : Nat) : Bool := 0xDC00 ≤ unit && unit < 0xE000

/-- The character of a unit that has no part in a pair. -/
def single (unit : Nat) : Char :=
  if isLeading unit || isTrailing unit then Utf8.replacement else Char.ofNat unit

def pair (leading trailing : Nat) : Char :=
  Char.ofNat (0x10000 + (leading - 0xD800) * 1024 + (trailing - 0xDC00))

/-- The characters of the units; `dangling` tells whether half a unit follows them. -/
def chars (dangling : Bool) : List Nat → List Char
  | [] => if dangling then [Utf8.replacement] else []
  | [unit] =>
    if isLeading unit then [Utf8.replacement] else single unit :: chars dangling []
  | unit :: second :: rest =>
    if isLeading unit && isTrailing second then pair unit second :: chars dangling rest
    else single unit :: chars dangling (second :: rest)

/-- The text of the bytes with U+FFFD for everything ill-formed. -/
def decodeLenient (order : ByteOrder) (bytes : List UInt8) : String :=
  String.ofList (chars (units order bytes).2 (units order bytes).1)

end LocalizedAccessors.Text.Utf16
