/-!
# UTF-8

A byte string is cut into pieces: the characters it encodes, and the parts that encode none. An
ill-formed part is as long as it could still have been the beginning of a character, so the pieces
give at once the strict reading, which stops at the first ill-formed part, and the lenient one,
which puts U+FFFD in place of each.
-/

namespace LocalizedAccessors.Text.Utf8

/-- A piece of a byte string. -/
inductive Piece where
  | char (c : Char)
  /-- Some bytes that begin a character which the next byte does not continue. -/
  | malformed (length : Nat)
  /-- Some bytes that begin a character at the very end. -/
  | truncated (length : Nat)
  deriving DecidableEq, Repr

/-- How a character goes on after its first byte: how many bytes follow, the bounds of the next
one, and the bits read so far. -/
structure Lead where
  following : Nat
  low : Nat
  high : Nat
  bits : Nat

/-- What the first byte of a character announces. The bounds of the second byte leave out
overlong forms, surrogates and code points above U+10FFFF. -/
def Lead.ofByte? (b : Nat) : Option Lead :=
  if b < 0x80 then some ⟨0, 0x80, 0xBF, b⟩
  else if b < 0xC2 then none
  else if b < 0xE0 then some ⟨1, 0x80, 0xBF, b - 0xC0⟩
  else if b == 0xE0 then some ⟨2, 0xA0, 0xBF, 0⟩
  else if b == 0xED then some ⟨2, 0x80, 0x9F, 0xD⟩
  else if b < 0xF0 then some ⟨2, 0x80, 0xBF, b - 0xE0⟩
  else if b == 0xF0 then some ⟨3, 0x90, 0xBF, 0⟩
  else if b < 0xF4 then some ⟨3, 0x80, 0xBF, b - 0xF0⟩
  else if b == 0xF4 then some ⟨3, 0x80, 0x8F, 4⟩
  else none

/-- The piece that a started character becomes, and the bytes after it. -/
def finish : (following low high bits read : Nat) → List UInt8 → Piece × List UInt8
  | 0, _, _, bits, _, bytes => (.char (Char.ofNat bits), bytes)
  | _ + 1, _, _, _, read, [] => (.truncated read, [])
  | n + 1, low, high, bits, read, b :: bytes =>
    if low ≤ b.toNat && b.toNat ≤ high then
      finish n 0x80 0xBF (bits * 64 + (b.toNat - 0x80)) (read + 1) bytes
    else (.malformed read, b :: bytes)

/-- The first piece of `b :: bytes`, and the bytes after it. -/
def next (b : UInt8) (bytes : List UInt8) : Piece × List UInt8 :=
  match Lead.ofByte? b.toNat with
  | some lead => finish lead.following lead.low lead.high lead.bits 1 bytes
  | none => (.malformed 1, bytes)

theorem finish_length_le (following low high bits read : Nat) (bytes : List UInt8) :
    (finish following low high bits read bytes).2.length ≤ bytes.length := by
  induction following generalizing low high bits read bytes with
  | zero => simp [finish]
  | succ n ih =>
    cases bytes with
    | nil => simp [finish]
    | cons b bytes =>
      rw [finish]
      split
      · exact Nat.le_succ_of_le (ih ..)
      · exact Nat.le_refl _

theorem next_length_le (b : UInt8) (bytes : List UInt8) :
    (next b bytes).2.length ≤ bytes.length := by
  unfold next
  split
  · exact finish_length_le ..
  · exact Nat.le_refl _

/-- The pieces of a byte string from its beginning to its end. -/
def pieces : List UInt8 → List Piece
  | [] => []
  | b :: bytes => (next b bytes).1 :: pieces (next b bytes).2
termination_by bytes => bytes.length
decreasing_by exact Nat.lt_succ_of_le (next_length_le b bytes)

/-- Where the first ill-formed part begins, and its length if the bytes do not end within it. -/
structure Fault where
  index : Nat
  length : Option Nat
  deriving DecidableEq, Repr

def Fault.message (fault : Fault) : String :=
  match fault.length with
  | some n => "invalid utf-8 sequence of " ++ toString n ++ " bytes from index "
      ++ toString fault.index
  | none => "incomplete utf-8 byte sequence from index " ++ toString fault.index

/-- The characters of the pieces, the first of which begins at the byte `index`. -/
def charsFrom (index : Nat) : List Piece → Except Fault (List Char)
  | [] => .ok []
  | .char c :: rest => (charsFrom (index + c.utf8Size) rest).map (c :: ·)
  | .malformed n :: _ => .error ⟨index, some n⟩
  | .truncated _ :: _ => .error ⟨index, none⟩

/-- The text that the bytes encode. -/
def decode (bytes : List UInt8) : Except Fault String :=
  (charsFrom 0 (pieces bytes)).map String.ofList

/-- The character that stands in for what encodes none. -/
def replacement : Char := '\ufffd'

def Piece.lenient : Piece → Char
  | .char c => c
  | _ => replacement

/-- The text of the bytes with U+FFFD for every ill-formed part. -/
def decodeLenient (bytes : List UInt8) : String :=
  String.ofList ((pieces bytes).map Piece.lenient)

/-- The bytes of one character. -/
def encodeChar (c : Char) : List UInt8 :=
  let n := c.toNat
  let continuation (bits : Nat) : UInt8 := UInt8.ofNat (0x80 + bits % 64)
  if n < 0x80 then [UInt8.ofNat n]
  else if n < 0x800 then [UInt8.ofNat (0xC0 + n / 64), continuation n]
  else if n < 0x10000 then
    [UInt8.ofNat (0xE0 + n / 4096), continuation (n / 64), continuation n]
  else
    [UInt8.ofNat (0xF0 + n / 262144), continuation (n / 4096), continuation (n / 64),
      continuation n]

def encode (text : String) : List UInt8 := text.toList.flatMap encodeChar

end LocalizedAccessors.Text.Utf8
