import LocalizedAccessors.Markup.Fault
import LocalizedAccessors.Text.Digit

/-!
# References in text

In a run of text an ampersand begins a reference: one of the five predefined names, or a character
by its number in decimal or hexadecimal digits. Everything else stands for itself.
-/

namespace LocalizedAccessors.Markup

/-- The character of a predefined name. -/
def predefined? (name : String) : Option Char :=
  [("lt", '<'), ("gt", '>'), ("amp", '&'), ("apos", '\''), ("quot", '\"')].lookup name

/-- The number of the digits that continue a value, as long as it stays below 2^32. -/
def number (base value : Nat) : List Char → Except CharacterFault Nat
  | [] => .ok value
  | c :: rest =>
    match Text.digitValue? base c with
    | none => .error .invalidDigit
    | some digit =>
      if value * base + digit < UInt32.size then number base (value * base + digit) rest
      else .error .tooLarge

/-- The number that these digits make. No sign may stand before them. -/
def numberOf (base : Nat) (digits : List Char) : Except CharacterFault Nat :=
  match digits with
  | [] => .error .noDigits
  | c :: _ => if c == '+' || c == '-' then .error .signed else number base 0 digits

/-- The character with the number that stands after `&#`. -/
def numbered (text : List Char) : Except CharacterFault Char := do
  let code ← match text with
    | 'x' :: digits => numberOf 16 digits
    | digits => numberOf 10 digits
  if code = 0 then .error .null
  else if code.isValidChar then .ok (Char.ofNat code)
  else .error (.notScalar code)

/-- The number of bytes of a text. -/
def width (cs : List Char) : Nat := (String.ofList cs).utf8ByteSize

/-- The character that a reference stands for; its name begins at the byte `first`. -/
def resolve (first : Nat) (name : List Char) : Except Fault Char :=
  match name with
  | '#' :: text => (numbered text).mapError .character
  | _ =>
    match predefined? (String.ofList name) with
    | some c => .ok c
    | none => .error (.unknownEntity first (first + width name) (String.ofList name))

def isReferenceMark (c : Char) : Bool := c == '&' || c == ';'

/-- The text with its references resolved. The text begins at the byte `index` of a run of `size`
bytes. -/
def unescapeFrom (size index : Nat) : List Char → Except Fault (List Char)
  | [] => .ok []
  | '&' :: rest =>
    let name := rest.takeWhile fun c ↦ !isReferenceMark c
    match _h : rest.dropWhile fun c ↦ !isReferenceMark c with
    | ';' :: after => do
      let c ← resolve (index + 1) name
      let tail ← unescapeFrom size (index + 1 + width name + 1) after
      return c :: tail
    | _ => .error (.unterminatedEntity index size)
  | c :: rest => do
    let tail ← unescapeFrom size (index + c.utf8Size) rest
    return c :: tail
termination_by cs => cs.length
decreasing_by
  · have hle := (List.dropWhile_suffix (l := rest) fun c ↦ !isReferenceMark c).length_le
    rw [_h] at hle
    simp only [List.length_cons] at hle ⊢
    omega
  · simp

/-- The text of a run of bytes. -/
def unescape (content : Bytes) : Except Fault String :=
  match Text.Utf8.decode content with
  | .error fault => .error (.encoding fault)
  | .ok text => (unescapeFrom content.length 0 text.toList).map String.ofList

end LocalizedAccessors.Markup
