import LocalizedAccessors.Markup.Reference
import LocalizedAccessors.Proofs.StringsTable.Reading
import LocalizedAccessors.Proofs.Text.Decimal
import LocalizedAccessors.Proofs.Text.Utf8
import Mathlib.Data.Bool.AllAny
import Mathlib.Data.List.TakeWhile

/-!
# Characters in running text

A character of a text stands for itself, or it is referred to by a predefined name or by its number.
However it is written, it is read back in front of whatever text follows.
-/

namespace LocalizedAccessors.Markup

open StringsTable (HexDigit)

/-- The characters that have a predefined name. -/
inductive Entity where
  | lt
  | gt
  | amp
  | apos
  | quot

def Entity.name : Entity → List Char
  | lt => ['l', 't']
  | gt => ['g', 't']
  | amp => ['a', 'm', 'p']
  | apos => ['a', 'p', 'o', 's']
  | quot => ['q', 'u', 'o', 't']

def Entity.character : Entity → Char
  | lt => '<'
  | gt => '>'
  | amp => '&'
  | apos => '\''
  | quot => '\"'

inductive Numeral where
  | decimal (digits : List (Fin 10))
  | hexadecimal (digits : List HexDigit)

namespace Numeral

def written : Numeral → List Char
  | decimal digits => digits.map fun digit : Fin 10 ↦ Nat.digitChar digit
  | hexadecimal digits => 'x' :: digits.map HexDigit.written

def value : Numeral → Nat
  | decimal digits => digits.foldl (fun number (digit : Fin 10) ↦ 10 * number + digit) 0
  | hexadecimal digits => HexDigit.number 0 digits

end Numeral

/-- One character of a text. -/
inductive Glyph where
  | raw (c : Char) (plain : c ≠ '<' ∧ c ≠ '&')
  | named (entity : Entity)
  | numbered (numeral : Numeral) (c : Char) (value_eq : numeral.value = c.toNat)
      (ne_null : c ≠ '\x00')

namespace Glyph

def chars : Glyph → List Char
  | raw c _ => [c]
  | named entity => '&' :: (entity.name ++ [';'])
  | numbered numeral _ _ _ => '&' :: '#' :: (numeral.written ++ [';'])

def written (glyph : Glyph) : Bytes := glyph.chars.flatMap Text.Utf8.encodeChar

def meaning : Glyph → Char
  | raw c _ => c
  | named entity => entity.character
  | numbered _ c _ _ => c

end Glyph

/-! ## Numbers -/

/-- Some marks are digits of no base. -/
theorem notMem_of_digitValue? {base v : Nat} {c : Char} (h : Text.digitValue? base c = some v) :
    c ∉ ['+', '-', '&', ';', '<'] := by
  intro hmem
  simp only [List.mem_cons, List.not_mem_nil, or_false] at hmem
  rcases hmem with rfl | rfl | rfl | rfl | rfl
  all_goals simp [Text.digitValue?] at h

section Numbers

variable {α : Type} {base : Nat} {written : α → Char} {value : α → Nat}

theorem le_foldl_digits (hbase : 0 < base) (front : Nat) (digits : List α) :
    front ≤ digits.foldl (fun number digit ↦ base * number + value digit) front := by
  induction digits generalizing front with
  | nil => exact Nat.le_refl _
  | cons digit digits ih =>
    refine Nat.le_trans ?_ (ih _)
    exact Nat.le_trans (Nat.le_mul_of_pos_left _ hbase) (Nat.le_add_right ..)

theorem number_map (hbase : 0 < base)
    (hvalue : ∀ digit, Text.digitValue? base (written digit) = some (value digit)) {front : Nat}
    {digits : List α}
    (hlt : digits.foldl (fun number digit ↦ base * number + value digit) front < UInt32.size) :
    number base front (digits.map written) =
      .ok (digits.foldl (fun number digit ↦ base * number + value digit) front) := by
  induction digits generalizing front with
  | nil => rfl
  | cons digit digits ih =>
    have hstep : front * base + value digit < UInt32.size := by
      rw [Nat.mul_comm]
      exact Nat.lt_of_le_of_lt (le_foldl_digits hbase _ digits) hlt
    rw [List.map_cons, number, hvalue]
    simp only [hstep, if_true]
    rw [Nat.mul_comm, ih hlt, List.foldl_cons]

theorem numberOf_map (hbase : 0 < base)
    (hvalue : ∀ digit, Text.digitValue? base (written digit) = some (value digit))
    {digits : List α} (hne : digits ≠ [])
    (hlt : digits.foldl (fun number digit ↦ base * number + value digit) 0 < UInt32.size) :
    numberOf base (digits.map written) =
      .ok (digits.foldl (fun number digit ↦ base * number + value digit) 0) := by
  have hnumber := number_map hbase hvalue hlt
  obtain ⟨digit, others, rfl⟩ := List.exists_cons_of_ne_nil hne
  have hfirst : (written digit == '+' || written digit == '-') = false := by
    have hmarks := notMem_of_digitValue? (hvalue digit)
    simp only [List.mem_cons, not_or] at hmarks
    simp [hmarks]
  rw [List.map_cons, numberOf, hfirst, if_neg Bool.false_ne_true]
  exact hnumber

end Numbers

theorem numberOf_written {numeral : Numeral} (hpos : numeral.value ≠ 0)
    (hlt : numeral.value < UInt32.size) :
    match numeral with
    | .decimal digits =>
      numberOf 10 (digits.map fun digit : Fin 10 ↦ Nat.digitChar digit) = .ok numeral.value
    | .hexadecimal digits => numberOf 16 (digits.map HexDigit.written) = .ok numeral.value := by
  cases numeral with
  | decimal digits =>
    have hne : digits ≠ [] := by
      rintro rfl
      exact hpos rfl
    exact numberOf_map (by decide) (fun digit : Fin 10 ↦ Text.digitValue?_digitChar digit.isLt)
      hne hlt
  | hexadecimal digits =>
    have hne : digits ≠ [] := by
      rintro rfl
      exact hpos rfl
    exact numberOf_map (by decide) StringsTable.digitValue?_written hne hlt

theorem numbered_written {numeral : Numeral} {c : Char} (hvalue : numeral.value = c.toNat)
    (hne : c ≠ '\x00') : Markup.numbered numeral.written = .ok c := by
  have hpos : c.toNat ≠ 0 := fun hzero ↦ hne (Char.toNat_inj.1 hzero)
  have hvalid : c.toNat.isValidChar := c.valid
  have hcode := numberOf_written (hvalue ▸ hpos) (hvalue ▸ c.val.toNat_lt_size)
  have hchar : (if c.toNat = 0 then Except.error CharacterFault.null
      else if c.toNat.isValidChar then .ok (Char.ofNat c.toNat)
      else .error (.notScalar c.toNat)) = .ok c := by
    rw [if_neg hpos, if_pos hvalid, Char.ofNat_toNat]
  cases numeral with
  | decimal digits =>
    have hdecimal : ∀ rest, digits.map (fun digit : Fin 10 ↦ Nat.digitChar digit) ≠ 'x' :: rest := by
      intro rest heq
      have hmem : 'x' ∈ digits.map fun digit : Fin 10 ↦ Nat.digitChar digit := by simp [heq]
      obtain ⟨digit, -, hdigit⟩ := List.mem_map.1 hmem
      exact absurd hdigit (by revert digit; decide)
    rw [Numeral.written, Markup.numbered, hcode, hvalue]
    · exact hchar
    · exact hdecimal
  | hexadecimal digits =>
    rw [Numeral.written, Markup.numbered, hcode, hvalue]
    exact hchar

/-! ## Texts -/

theorem toOption_bind {ε α β : Type} (x : Except ε α) (f : α → Except ε β) :
    (x >>= f).toOption = x.toOption.bind fun a ↦ (f a).toOption := by
  cases x <;> rfl

theorem toOption_resolve (first other : Nat) (name : List Char) :
    (resolve first name).toOption = (resolve other name).toOption := by
  unfold resolve
  split
  · rfl
  · split <;> rfl

theorem unescapeFrom_reference (size index : Nat) {rest after : List Char}
    (h : rest.dropWhile (fun c ↦ !isReferenceMark c) = ';' :: after) :
    unescapeFrom size index ('&' :: rest) = (do
      let name := rest.takeWhile fun c ↦ !isReferenceMark c
      let c ← resolve (index + 1) name
      let tail ← unescapeFrom size (index + 1 + width name + 1) after
      return c :: tail) := by
  rw [unescapeFrom]
  split
  · next found hfound =>
    obtain rfl : after = found := by simpa [h] using hfound
    rfl
  · next hnone => exact absurd h (hnone after)

/-- Places tell only where a fault is. -/
theorem toOption_unescapeFrom (size index size' index' : Nat) (cs : List Char) :
    (unescapeFrom size index cs).toOption = (unescapeFrom size' index' cs).toOption := by
  fun_induction unescapeFrom size index cs generalizing size' index' with
  | case1 => rw [unescapeFrom]
  | case2 index rest name after hafter ih =>
    rw [unescapeFrom_reference size' index' hafter]
    simp only [toOption_bind, ih size' (index' + 1 + width name + 1),
      toOption_resolve (index + 1) (index' + 1)]
    rfl
  | case3 index rest hnone =>
    rw [unescapeFrom]
    split
    · next after hafter => exact absurd hafter (hnone after)
    · rfl
  | case4 index c rest hc ih =>
    rw [unescapeFrom, toOption_bind, toOption_bind, ih]
    exact hc

/-- The characters of a text whose references are resolved, if they all can be. -/
def resolved? (cs : List Char) : Option (List Char) := (unescapeFrom 0 0 cs).toOption

theorem resolved?_reference {name rest : List Char} {c : Char}
    (hname : ∀ c ∈ name, isReferenceMark c = false) (hresolve : resolve 1 name = .ok c) :
    resolved? ('&' :: (name ++ ';' :: rest)) = (resolved? rest).map (c :: ·) := by
  have hplain : ∀ c ∈ name, (!isReferenceMark c) = true := fun c hc ↦ by simp [hname c hc]
  have hdrop : (name ++ ';' :: rest).dropWhile (fun c ↦ !isReferenceMark c) = ';' :: rest := by
    rw [List.dropWhile_append_of_pos hplain]
    rfl
  have htake : (name ++ ';' :: rest).takeWhile (fun c ↦ !isReferenceMark c) = name := by
    rw [List.takeWhile_append_of_pos hplain]
    exact List.append_nil name
  rw [resolved?, unescapeFrom_reference 0 0 hdrop]
  simp only [htake, hresolve, toOption_bind]
  rw [toOption_unescapeFrom _ _ 0 0]
  exact (Option.map_eq_bind ..).symm

theorem notMem_numeral {numeral : Numeral} {c : Char} (h : c ∈ numeral.written) :
    c ∉ ['+', '-', '&', ';', '<'] := by
  cases numeral with
  | decimal digits =>
    obtain ⟨digit, -, rfl⟩ := List.mem_map.1 h
    exact notMem_of_digitValue? (Text.digitValue?_digitChar digit.isLt)
  | hexadecimal digits =>
    rcases List.mem_cons.1 h with rfl | h
    · decide
    · obtain ⟨digit, -, rfl⟩ := List.mem_map.1 h
      exact notMem_of_digitValue? (StringsTable.digitValue?_written digit)

theorem resolved?_glyph (glyph : Glyph) (rest : List Char) :
    resolved? (glyph.chars ++ rest) = (resolved? rest).map (glyph.meaning :: ·) := by
  cases glyph with
  | raw c plain =>
    rw [Glyph.chars, List.singleton_append, resolved?, unescapeFrom, toOption_bind,
      toOption_unescapeFrom _ _ 0 0]
    · exact (Option.map_eq_bind ..).symm
    · exact fun heq ↦ plain.2 heq
  | named entity =>
    have hname : ∀ c ∈ entity.name, isReferenceMark c = false :=
      List.all_iff_forall_prop.1 (by cases entity <;> decide)
    have hresolve : resolve 1 entity.name = .ok entity.character := by cases entity <;> rfl
    simpa [Glyph.chars, Glyph.meaning] using resolved?_reference hname hresolve
  | numbered numeral c value_eq ne_null =>
    have hname : ∀ c ∈ '#' :: numeral.written, isReferenceMark c = false := by
      refine List.forall_mem_cons.2 ⟨rfl, fun c hc ↦ ?_⟩
      have hmarks := notMem_numeral hc
      simp only [List.mem_cons, not_or] at hmarks
      simp [isReferenceMark, hmarks]
    have hresolve : resolve 1 ('#' :: numeral.written) = .ok c := by
      rw [resolve, numbered_written value_eq ne_null]
      rfl
    simpa [Glyph.chars, Glyph.meaning] using resolved?_reference hname hresolve

theorem Glyph.lt_notMem_chars (glyph : Glyph) : '<' ∉ glyph.chars := by
  cases glyph with
  | raw c plain => simpa [Glyph.chars] using Ne.symm plain.1
  | named entity => cases entity <;> decide
  | numbered numeral =>
    have hnumeral : '<' ∉ numeral.written := fun hmem ↦ notMem_numeral hmem (by decide)
    simp [Glyph.chars, hnumeral]

/-- No byte of a character begins markup. -/
theorem Glyph.lt_notMem_written (glyph : Glyph) : byte '<' ∉ glyph.written := by
  intro hmem
  obtain ⟨c, hc, hbyte⟩ := List.mem_flatMap.1 hmem
  have hcode := Text.Utf8.eq_of_mem_encodeChar (by decide) hbyte
  obtain rfl : c = '<' := Char.toNat_inj.1 hcode
  exact glyph.lt_notMem_chars hc

theorem toOption_unescape (bytes : Bytes) :
    (unescape bytes).toOption =
      (Text.Utf8.decode bytes).toOption.bind fun text ↦
        (resolved? text.toList).map String.ofList := by
  unfold unescape
  split
  · next h =>
    rw [h]
    rfl
  · next text h =>
    rw [h, Text.Utf8.toOption_map, toOption_unescapeFrom _ _ 0 0]
    rfl

/-- A character is read in front of whatever bytes follow. -/
theorem unescape_glyph (glyph : Glyph) (bytes : Bytes) :
    (unescape (glyph.written ++ bytes)).toOption =
      (unescape bytes).toOption.map fun text ↦ String.ofList (glyph.meaning :: text.toList) := by
  rw [toOption_unescape, toOption_unescape, Glyph.written, Text.Utf8.toOption_decode_append]
  cases (Text.Utf8.decode bytes).toOption with
  | none => rfl
  | some text =>
    simp [resolved?_glyph, Function.comp_def]

end LocalizedAccessors.Markup
