import LocalizedAccessors.Proofs.Text.Utf16
import LocalizedAccessors.Proofs.Text.Utf8
import LocalizedAccessors.StringsTable.Encoding

/-!
# Stored strings tables

The ways to store a table in a file: as UTF-8 with or without a byte order mark, and as UTF-16 after
the mark of either byte order. Which of them is chosen makes no difference to what is read, save for
the empty table: a mark of UTF-16 with nothing after it is not taken for a mark.
-/

namespace LocalizedAccessors.StringsTable

open Text

/-- A way to store a text in a file. -/
inductive Storage where
  | plain
  /-- UTF-8 after a byte order mark. -/
  | marked
  /-- UTF-16 after a byte order mark. -/
  | wide (order : Utf16.ByteOrder)
  deriving DecidableEq, Repr

namespace Storage

/-- The byte order mark. -/
def mark : Storage → List UInt8
  | plain => []
  | marked => [0xEF, 0xBB, 0xBF]
  | wide .little => [0xFF, 0xFE]
  | wide .big => [0xFE, 0xFF]

/-- The bytes of a file with a text. -/
def bytes (storage : Storage) (text : String) : List UInt8 :=
  storage.mark ++ match storage with
    | plain | marked => Utf8.encode text
    | wide order => Utf16.encode order text

end Storage

/-- A byte order mark in front of a table makes no difference. -/
theorem pairs_cons_mark (cs : List Char) :
    pairs (String.ofList ('\ufeff' :: cs)) = pairs (String.ofList cs) := by
  simp [pairs]

/-- A byte that begins no character does not begin a text. -/
theorem encode_ne_of_ofByte? {b : UInt8} (h : Utf8.Lead.ofByte? b.toNat = none) (text : String)
    (bytes : List UInt8) : Utf8.encode text ≠ b :: bytes := by
  intro htext
  have hpieces := Utf8.pieces_encode_text text
  rw [htext, Utf8.pieces, Utf8.next, h] at hpieces
  cases hcs : text.toList with
  | nil => simp [hcs] at hpieces
  | cons c cs => simp [hcs] at hpieces

/-- A text in UTF-8 that happens to begin with the bytes of the mark loses one of its marks. -/
theorem pairs_of_encode_eq_mark {text : String} {bytes : List UInt8}
    (h : Utf8.encode text = 0xEF :: 0xBB :: 0xBF :: bytes) :
    pairs (Utf8.decodeLenient bytes) = pairs text := by
  have hpieces := Utf8.pieces_encode_text text
  have hmark : Utf8.encodeChar '\ufeff' = [0xEF, 0xBB, 0xBF] := by decide
  have hfirst := Utf8.pieces_encodeChar '\ufeff' bytes
  rw [hmark, List.cons_append, List.cons_append, List.singleton_append, ← h, hpieces] at hfirst
  obtain ⟨c, cs, hcs, hc, hrest⟩ := List.map_eq_cons_iff.1 hfirst
  obtain rfl := Utf8.Piece.char.inj hc
  have hread : Utf8.decodeLenient bytes = String.ofList cs := by
    rw [Utf8.decodeLenient, ← hrest, List.map_map]
    exact congrArg String.ofList (List.map_id cs)
  rw [hread, ← pairs_cons_mark, ← hcs, String.ofList_toList]

theorem ofFile_plain (text : String) : ofFile (Storage.plain.bytes text) = .ok (pairs text) := by
  rw [Storage.bytes, Storage.mark, List.nil_append, ofFile, fileText.eq_def]
  split
  · next h => exact absurd h (encode_ne_of_ofByte? (by decide) text _)
  · next h => exact absurd h (encode_ne_of_ofByte? (by decide) text _)
  · next h => exact congrArg Except.ok (pairs_of_encode_eq_mark h)
  · rw [Utf8.decode_encode]
    rfl

theorem ofFile_marked (text : String) : ofFile (Storage.marked.bytes text) = .ok (pairs text) := by
  have htext : fileText (Storage.marked.bytes text) = .ok (Utf8.decodeLenient (Utf8.encode text)) :=
    rfl
  rw [ofFile, htext, Utf8.encode, Utf8.decodeLenient_encode, String.ofList_toList]
  rfl

theorem ofFile_wide (order : Utf16.ByteOrder) {text : String} (h : text ≠ "") :
    ofFile ((Storage.wide order).bytes text) = .ok (pairs text) := by
  obtain ⟨b, bytes, hbytes⟩ := Utf16.exists_cons_encode order h
  have htext : fileText ((Storage.wide order).bytes text) = .ok text := by
    calc
      fileText ((Storage.wide order).bytes text)
        = .ok (Utf16.decodeLenient order (b :: bytes)) := by
          rw [Storage.bytes, hbytes]
          cases order <;> rfl
      _ = .ok text := by rw [← hbytes, Utf16.decodeLenient_encode]
  rw [ofFile, htext]
  rfl

theorem ofFile_wide_empty (order : Utf16.ByteOrder) :
    ofFile ((Storage.wide order).bytes "") = .error ⟨0, some 1⟩ := by
  cases order <;> decide +kernel

/-- A table is read from its text in UTF-8 as it is from the text itself, and from a file in
whatever way the file stores it. Only a file with a mark of UTF-16 and nothing behind it is refused,
where the empty table would have no pairs. -/
theorem ofFile_bytes (text : String) :
    ofUtf8 (Utf8.encode text) = .ok (pairs text) ∧
      ∀ storage : Storage, ofFile (storage.bytes text) = .ok (pairs text) ↔
        ¬(text = "" ∧ ∃ order, storage = .wide order) := by
  constructor
  · rw [ofUtf8, Utf8.decode_encode]
    rfl
  · intro storage
    cases storage with
    | plain => simpa using ofFile_plain text
    | marked => simpa using ofFile_marked text
    | wide order =>
      by_cases hempty : text = ""
      · simp [hempty, ofFile_wide_empty]
      · simpa [hempty] using ofFile_wide order hempty

/-- The empty table is not read from a file of UTF-16. -/
theorem ofFile_bytes_empty :
    ¬∀ (text : String) (storage : Storage), ofFile (storage.bytes text) = .ok (pairs text) :=
  fun h ↦ absurd (h "" (.wide .little)) (by simp [ofFile_wide_empty])

end LocalizedAccessors.StringsTable
