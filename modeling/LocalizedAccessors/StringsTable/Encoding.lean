import LocalizedAccessors.StringsTable.Statement
import LocalizedAccessors.Text.Utf16

/-!
# Encodings of a strings table

A file of at least three bytes may begin with a byte order mark, which tells its encoding and is no
part of its text; then ill-formed parts become U+FFFD. Without a mark the file has to be UTF-8.
-/

namespace LocalizedAccessors.StringsTable

open Text

/-- The text of a file, unless the file holds no text. -/
def fileText (bytes : List UInt8) : Except Utf8.Fault String :=
  match bytes with
  | 0xFF :: 0xFE :: b :: rest => .ok (Utf16.decodeLenient .little (b :: rest))
  | 0xFE :: 0xFF :: b :: rest => .ok (Utf16.decodeLenient .big (b :: rest))
  | 0xEF :: 0xBB :: 0xBF :: rest => .ok (Utf8.decodeLenient rest)
  | _ => Utf8.decode bytes

/-- The pairs of a table that is stored in a file. -/
def ofFile (bytes : List UInt8) : Except Utf8.Fault (List Pair) := (fileText bytes).map pairs

/-- The pairs of a table in UTF-8. -/
def ofUtf8 (bytes : List UInt8) : Except Utf8.Fault (List Pair) := (Utf8.decode bytes).map pairs

end LocalizedAccessors.StringsTable
