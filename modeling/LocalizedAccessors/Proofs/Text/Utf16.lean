import LocalizedAccessors.Text.Utf16

/-!
# Writing UTF-16

Texts in UTF-16: a unit for every character with a number of at most 16 bits, and two surrogates for
every other one. In either order of the bytes, what is written is read back.
-/

namespace LocalizedAccessors.Text.Utf16

/-- The two bytes of a unit. -/
def ByteOrder.bytes (order : ByteOrder) (unit : Nat) : List UInt8 :=
  match order with
  | .little => [UInt8.ofNat (unit % 256), UInt8.ofNat (unit / 256)]
  | .big => [UInt8.ofNat (unit / 256), UInt8.ofNat (unit % 256)]

/-- The units of one character. -/
def encodeChar (c : Char) : List Nat :=
  let n := c.toNat
  if n < 0x10000 then [n]
  else [0xD800 + (n - 0x10000) / 1024, 0xDC00 + (n - 0x10000) % 1024]

def encode (order : ByteOrder) (text : String) : List UInt8 :=
  (text.toList.flatMap encodeChar).flatMap order.bytes

theorem toNat_lt (c : Char) : c.toNat < 0x110000 := by
  have hvalid : c.toNat < 0xD800 ∨ 0xDFFF < c.toNat ∧ c.toNat < 0x110000 := c.valid
  omega

theorem lt_of_mem_encodeChar {c : Char} {unit : Nat} (h : unit ∈ encodeChar c) :
    unit < 0x10000 := by
  have hlt := toNat_lt c
  rw [encodeChar] at h
  split at h
  · next hsingle =>
    rw [List.mem_singleton.1 h]
    exact hsingle
  · simp only [List.mem_cons, List.not_mem_nil, or_false] at h
    omega

theorem units_bytes (order : ByteOrder) {unit : Nat} (h : unit < 0x10000) (bytes : List UInt8) :
    units order (order.bytes unit ++ bytes) =
      (unit :: (units order bytes).1, (units order bytes).2) := by
  have hlow : (UInt8.ofNat (unit % 256)).toNat = unit % 256 := by simp
  have hhigh : (UInt8.ofNat (unit / 256)).toNat = unit / 256 := by
    simpa using (by omega : unit / 256 < 256)
  cases order with
  | little =>
    have hunit : unit % 256 + unit / 256 * 256 = unit := by omega
    simp only [ByteOrder.bytes, List.cons_append, List.nil_append, units, ByteOrder.unit, hlow,
      hhigh, hunit]
  | big =>
    have hunit : unit / 256 * 256 + unit % 256 = unit := by omega
    simp only [ByteOrder.bytes, List.cons_append, List.nil_append, units, ByteOrder.unit, hlow,
      hhigh, hunit]

theorem units_flatMap_bytes (order : ByteOrder) {written : List Nat}
    (h : ∀ unit ∈ written, unit < 0x10000) :
    units order (written.flatMap order.bytes) = (written, false) := by
  induction written with
  | nil => rfl
  | cons unit rest ih =>
    obtain ⟨hunit, hrest⟩ := List.forall_mem_cons.1 h
    rw [List.flatMap_cons, units_bytes order hunit, ih hrest]

/-- A unit that is no surrogate is a character whatever follows. -/
theorem chars_single {unit : Nat} (h : unit < 0xD800 ∨ 0xDFFF < unit) (rest : List Nat) :
    chars false (unit :: rest) = Char.ofNat unit :: chars false rest := by
  have hleading : isLeading unit = false := by
    simp only [isLeading, Bool.and_eq_false_iff, decide_eq_false_iff_not]
    omega
  have htrailing : isTrailing unit = false := by
    simp only [isTrailing, Bool.and_eq_false_iff, decide_eq_false_iff_not]
    omega
  have hsingle : single unit = Char.ofNat unit := by simp [single, hleading, htrailing]
  cases rest with
  | nil => simp [chars, hleading, hsingle]
  | cons second rest => simp [chars, hleading, hsingle]

theorem chars_pair {n : Nat} (hlow : 0x10000 ≤ n) (hhigh : n < 0x110000) (rest : List Nat) :
    chars false ((0xD800 + (n - 0x10000) / 1024) :: (0xDC00 + (n - 0x10000) % 1024) :: rest) =
      Char.ofNat n :: chars false rest := by
  have hleading : isLeading (0xD800 + (n - 0x10000) / 1024) = true := by
    simp only [isLeading, Bool.and_eq_true, decide_eq_true_eq]
    omega
  have htrailing : isTrailing (0xDC00 + (n - 0x10000) % 1024) = true := by
    simp only [isTrailing, Bool.and_eq_true, decide_eq_true_eq]
    omega
  have hnumber : 0x10000 + (0xD800 + (n - 0x10000) / 1024 - 0xD800) * 1024 +
      (0xDC00 + (n - 0x10000) % 1024 - 0xDC00) = n := by omega
  simp only [chars, hleading, htrailing, Bool.and_self, if_true, pair, hnumber]

theorem chars_encodeChar (c : Char) (rest : List Nat) :
    chars false (encodeChar c ++ rest) = c :: chars false rest := by
  have hvalid : c.toNat < 0xD800 ∨ 0xDFFF < c.toNat ∧ c.toNat < 0x110000 := c.valid
  rw [encodeChar]
  split
  · rw [List.singleton_append, chars_single (by omega), Char.ofNat_toNat]
  · rw [List.cons_append, List.singleton_append, chars_pair (by omega) (toNat_lt c),
      Char.ofNat_toNat]

theorem chars_encode (cs : List Char) : chars false (cs.flatMap encodeChar) = cs := by
  induction cs with
  | nil => rfl
  | cons c cs ih => rw [List.flatMap_cons, chars_encodeChar, ih]

/-- Reading undoes writing. -/
theorem decodeLenient_encode (order : ByteOrder) (text : String) :
    decodeLenient order (encode order text) = text := by
  have hunits : ∀ unit ∈ text.toList.flatMap encodeChar, unit < 0x10000 := by
    intro unit hunit
    obtain ⟨c, -, hc⟩ := List.mem_flatMap.1 hunit
    exact lt_of_mem_encodeChar hc
  rw [decodeLenient, encode, units_flatMap_bytes order hunits, chars_encode, String.ofList_toList]

/-- Every character takes at least two bytes. -/
theorem exists_cons_encode (order : ByteOrder) {text : String} (h : text ≠ "") :
    ∃ b bytes, encode order text = b :: bytes := by
  obtain ⟨c, cs, htext⟩ := List.exists_cons_of_ne_nil fun hnil ↦ h (String.toList_eq_nil_iff.1 hnil)
  apply List.exists_cons_of_ne_nil
  rw [encode, htext, List.flatMap_cons, encodeChar]
  cases order <;> split <;> simp [ByteOrder.bytes]

end LocalizedAccessors.Text.Utf16
