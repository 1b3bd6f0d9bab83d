import LocalizedAccessors.Text.Utf8
import Mathlib.Tactic.IntervalCases

/-!
# Reading encoded characters

The bytes of a character are read as this character whatever follows them, so a text is what its
bytes encode. A byte below 128 occurs only as a character of its own.
-/

namespace LocalizedAccessors.Text.Utf8

/-! ## Lead bytes -/

theorem ofByte?_single {n : Nat} (h : n < 0x80) :
    Lead.ofByte? n = some ⟨0, 0x80, 0xBF, n⟩ := by
  rw [Lead.ofByte?, if_pos h]

theorem ofByte?_double {k : Nat} (hlow : 2 ≤ k) (hhigh : k < 32) :
    Lead.ofByte? (0xC0 + k) = some ⟨1, 0x80, 0xBF, k⟩ := by
  interval_cases k <;> rfl

theorem ofByte?_triple {k : Nat} (h : k < 16) :
    Lead.ofByte? (0xE0 + k) =
      some ⟨2, if k = 0 then 0xA0 else 0x80, if k = 13 then 0x9F else 0xBF, k⟩ := by
  interval_cases k <;> rfl

theorem ofByte?_quadruple {k : Nat} (h : k < 5) :
    Lead.ofByte? (0xF0 + k) =
      some ⟨3, if k = 0 then 0x90 else 0x80, if k = 4 then 0x8F else 0xBF, k⟩ := by
  interval_cases k <;> rfl

/-! ## Characters -/

theorem toNat_ofNat {n : Nat} (h : n < 256) : (UInt8.ofNat n).toNat = n := by
  simpa using h

theorem finish_continuation {low high : Nat} (n bits read v : Nat) (bytes : List UInt8)
    (hlow : low ≤ 0x80 + v % 64) (hhigh : 0x80 + v % 64 ≤ high) :
    finish (n + 1) low high bits read (UInt8.ofNat (0x80 + v % 64) :: bytes) =
      finish n 0x80 0xBF (bits * 64 + v % 64) (read + 1) bytes := by
  have hbyte : (UInt8.ofNat (0x80 + v % 64)).toNat = 0x80 + v % 64 := toNat_ofNat (by omega)
  rw [finish, hbyte, if_pos (by simp [hlow, hhigh]), Nat.add_sub_cancel_left]

theorem next_of_lead {n following low high bits : Nat} (hn : n < 256)
    (h : Lead.ofByte? n = some ⟨following, low, high, bits⟩) (bytes : List UInt8) :
    next (UInt8.ofNat n) bytes = finish following low high bits 1 bytes := by
  rw [next, toNat_ofNat hn, h]

section Characters

variable {n : Nat} (bytes : List UInt8)

theorem next_single (h : n < 0x80) : next (UInt8.ofNat n) bytes = (.char (Char.ofNat n), bytes) := by
  rw [next_of_lead (by omega) (ofByte?_single h), finish]

theorem next_double (hlow : 0x80 ≤ n) (hhigh : n < 0x800) :
    next (UInt8.ofNat (0xC0 + n / 64)) (UInt8.ofNat (0x80 + n % 64) :: bytes) =
      (.char (Char.ofNat n), bytes) := by
  have hbits : n / 64 * 64 + n % 64 = n := by omega
  rw [next_of_lead (by omega) (ofByte?_double (by omega) (by omega)),
    finish_continuation _ _ _ _ _ (by omega) (by omega), finish,
    hbits]

/-- The bounds of the second byte leave out what two bytes can encode, and surrogates. -/
theorem next_triple (hlow : 0x800 ≤ n) (hhigh : n < 0x10000) (h : n < 0xD800 ∨ 0xDFFF < n) :
    next (UInt8.ofNat (0xE0 + n / 4096))
        (UInt8.ofNat (0x80 + n / 64 % 64) :: UInt8.ofNat (0x80 + n % 64) :: bytes) =
      (.char (Char.ofNat n), bytes) := by
  have hbits : (n / 4096 * 64 + n / 64 % 64) * 64 + n % 64 = n := by omega
  rw [next_of_lead (by omega) (ofByte?_triple (by omega)),
    finish_continuation _ _ _ _ _ (by split <;> omega) (by split <;> omega),
    finish_continuation _ _ _ _ _ (by omega) (by omega), finish,
    hbits]

/-- The bounds of the second byte leave out what three bytes can encode, and what is no code
point. -/
theorem next_quadruple (hlow : 0x10000 ≤ n) (hhigh : n < 0x110000) :
    next (UInt8.ofNat (0xF0 + n / 262144))
        (UInt8.ofNat (0x80 + n / 4096 % 64) :: UInt8.ofNat (0x80 + n / 64 % 64) ::
          UInt8.ofNat (0x80 + n % 64) :: bytes) =
      (.char (Char.ofNat n), bytes) := by
  have hbits : ((n / 262144 * 64 + n / 4096 % 64) * 64 + n / 64 % 64) * 64 + n % 64 = n := by omega
  rw [next_of_lead (by omega) (ofByte?_quadruple (by omega)),
    finish_continuation _ _ _ _ _ (by split <;> omega) (by split <;> omega),
    finish_continuation _ _ _ _ _ (by omega) (by omega),
    finish_continuation _ _ _ _ _ (by omega) (by omega), finish,
    hbits]

end Characters

theorem pieces_of_next {b : UInt8} {bytes rest : List UInt8} {n : Nat}
    (h : next b bytes = (.char (Char.ofNat n), rest)) :
    pieces (b :: bytes) = .char (Char.ofNat n) :: pieces rest := by
  rw [pieces, h]

/-- The bytes of a character are one piece. -/
theorem pieces_encodeChar (c : Char) (bytes : List UInt8) :
    pieces (encodeChar c ++ bytes) = .char c :: pieces bytes := by
  have hvalid : c.toNat < 0xD800 ∨ 0xDFFF < c.toNat ∧ c.toNat < 0x110000 := c.valid
  have hpiece : Piece.char c = .char (Char.ofNat c.toNat) := by rw [Char.ofNat_toNat]
  rw [hpiece, encodeChar]
  split
  · next hsingle => exact pieces_of_next (next_single bytes hsingle)
  · next hsingle =>
    split
    · next hdouble => exact pieces_of_next (next_double bytes (by omega) hdouble)
    · next hdouble =>
      split
      · next htriple => exact pieces_of_next (next_triple bytes (by omega) htriple (by omega))
      · next htriple => exact pieces_of_next (next_quadruple bytes (by omega) (by omega))

theorem pieces_encode (chars : List Char) (bytes : List UInt8) :
    pieces (chars.flatMap encodeChar ++ bytes) = chars.map .char ++ pieces bytes := by
  induction chars with
  | nil => rfl
  | cons c chars ih =>
    rw [List.flatMap_cons, List.append_assoc, pieces_encodeChar, ih]
    rfl

theorem toOption_map {ε α β : Type} (x : Except ε α) (f : α → β) :
    (x.map f).toOption = x.toOption.map f := by
  cases x <;> rfl

/-- The place where the bytes begin tells only where a fault is. -/
theorem toOption_charsFrom (index other : Nat) (pieces : List Piece) :
    (charsFrom index pieces).toOption = (charsFrom other pieces).toOption := by
  induction pieces generalizing index other with
  | nil => rfl
  | cons piece pieces ih =>
    cases piece with
    | char c => simp only [charsFrom, toOption_map, ih (index + c.utf8Size) (other + c.utf8Size)]
    | malformed | truncated => rfl

theorem toOption_charsFrom_append (index : Nat) (chars : List Char) (pieces : List Piece) :
    (charsFrom index (chars.map .char ++ pieces)).toOption =
      (charsFrom 0 pieces).toOption.map (chars ++ ·) := by
  induction chars generalizing index with
  | nil => simp [toOption_charsFrom index 0]
  | cons c chars ih => simp [charsFrom, toOption_map, ih, Function.comp_def]

theorem toOption_decode_append (chars : List Char) (bytes : List UInt8) :
    (decode (chars.flatMap encodeChar ++ bytes)).toOption =
      (decode bytes).toOption.map fun text ↦ String.ofList (chars ++ text.toList) := by
  simp [decode, pieces_encode, toOption_map, toOption_charsFrom_append, Function.comp_def]

theorem pieces_encode_text (text : String) : pieces (encode text) = text.toList.map .char := by
  have hpieces := pieces_encode text.toList []
  rwa [List.append_nil, pieces, List.append_nil] at hpieces

theorem decode_encode (text : String) : decode (encode text) = .ok text := by
  have hnothing : (decode []).toOption = some "" := by decide +kernel
  have hread := toOption_decode_append text.toList []
  rw [List.append_nil, hnothing, ← encode] at hread
  cases hresult : decode (encode text) with
  | error fault => simp [hresult, Except.toOption] at hread
  | ok read =>
    have hsame : read = text := by simpa [hresult, Except.toOption] using hread
    rw [hsame]

theorem decodeLenient_encode (chars : List Char) :
    decodeLenient (chars.flatMap encodeChar) = String.ofList chars := by
  have hpieces := pieces_encode chars []
  rw [List.append_nil, pieces, List.append_nil] at hpieces
  rw [decodeLenient, hpieces, List.map_map]
  congr 1
  exact List.map_id chars

/-- A byte below 128 in a character is all of the character. -/
theorem eq_of_mem_encodeChar {b : UInt8} {c : Char} (hb : b.toNat < 0x80) (h : b ∈ encodeChar c) :
    c.toNat = b.toNat := by
  have hvalid : c.toNat < 0xD800 ∨ 0xDFFF < c.toNat ∧ c.toNat < 0x110000 := c.valid
  have hhigh : ∀ n, 0x80 ≤ n → n < 256 → b ≠ UInt8.ofNat n := by
    rintro n hlow hlt rfl
    rw [toNat_ofNat hlt] at hb
    omega
  rw [encodeChar] at h
  split at h
  · obtain rfl := List.mem_singleton.1 h
    exact (toNat_ofNat (by omega)).symm
  · split at h
    · simp only [List.mem_cons, List.not_mem_nil, or_false] at h
      rcases h with h | h
      all_goals exact absurd h (hhigh _ (by omega) (by omega))
    · split at h
      · simp only [List.mem_cons, List.not_mem_nil, or_false] at h
        rcases h with h | h | h
        all_goals exact absurd h (hhigh _ (by omega) (by omega))
      · simp only [List.mem_cons, List.not_mem_nil, or_false] at h
        rcases h with h | h | h | h
        all_goals exact absurd h (hhigh _ (by omega) (by omega))

end LocalizedAccessors.Text.Utf8
