/-!
# Kinds of arguments

What a format placeholder stands for, as told by its conversion character, and the Swift type that
an accessor declares for it.
-/

namespace LocalizedAccessors

/-- The meaning of one placeholder of a format string. -/
inductive ArgumentKind where
  | object
  | character
  | signedInteger
  | unsignedDecimal
  | unsignedHex
  | unsignedOctal
  | fixedFloat
  | exponentFloat
  | shortestFloat
  | hexFloat
  | unsignedChar
  | cString
  | pointer
  deriving DecidableEq, Repr

namespace ArgumentKind

/-- The kind of a conversion character. Characters that convert nothing, and the conversions `i`
and `n`, have none. -/
def ofConversion? : Char → Option ArgumentKind
  | '@' => some .object
  | '%' => some .character
  | 'd' | 'D' => some .signedInteger
  | 'u' | 'U' => some .unsignedDecimal
  | 'x' | 'X' => some .unsignedHex
  | 'o' | 'O' => some .unsignedOctal
  | 'f' | 'F' => some .fixedFloat
  | 'e' | 'E' => some .exponentFloat
  | 'g' | 'G' => some .shortestFloat
  | 'a' | 'A' => some .hexFloat
  | 'c' | 'C' => some .unsignedChar
  | 's' | 'S' => some .cString
  | 'p' => some .pointer
  | _ => none

def swiftType : ArgumentKind → String
  | object => "String"
  | character => "CChar"
  | signedInteger => "Int"
  | unsignedDecimal | unsignedHex | unsignedOctal => "UInt32"
  | fixedFloat | exponentFloat | shortestFloat | hexFloat => "Double"
  | unsignedChar => "CUnsignedChar"
  | cString => "UnsafePointer<CChar>"
  | pointer => "UnsafeRawPointer"

end ArgumentKind

end LocalizedAccessors
