import LocalizedAccessors.Text.Blank
import LocalizedAccessors.Text.Digit
import Mathlib.Data.List.Induction
import Mathlib.Data.List.TakeWhile

/-!
# Decimal digits between blanks

What trimming leaves is what stands between the blanks at the two ends. Decimal digits are always
the digits of one number as it is printed, behind some zeros, and that number is what they stand
for.
-/

namespace LocalizedAccessors.Text

/-! ## Trimming -/

theorem trim_append {before body behind : List Char} (hbefore : ∀ c ∈ before, isBlank c = true)
    (hbody : ∀ c ∈ body, isBlank c = false) (hbehind : ∀ c ∈ behind, isBlank c = true) :
    trim (before ++ (body ++ behind)) = body := by
  rw [trim, List.dropWhile_append_of_pos hbefore]
  have hsolid {cs : List Char} (h : ∀ c ∈ cs, isBlank c = false) : cs.dropWhile isBlank = cs := by
    cases cs with
    | nil => rfl
    | cons c cs => rw [List.dropWhile_cons_of_neg (by simp [h c List.mem_cons_self])]
  rw [List.dropWhile_append, hsolid hbody]
  split
  · next hempty =>
    rw [List.isEmpty_iff.1 hempty, List.dropWhile_eq_nil_iff.2 hbehind]
    rfl
  · rw [List.reverse_append, List.dropWhile_append_of_pos (by simpa using hbehind),
      hsolid (by simpa using hbody), List.reverse_reverse]

theorem exists_eq_append_trim (cs : List Char) :
    ∃ before behind, cs = before ++ (trim cs ++ behind) ∧ (∀ c ∈ before, isBlank c = true) ∧
      ∀ c ∈ behind, isBlank c = true := by
  refine ⟨cs.takeWhile isBlank, ((cs.dropWhile isBlank).reverse.takeWhile isBlank).reverse, ?_,
    fun c hc ↦ List.mem_takeWhile_imp hc,
    fun c hc ↦ List.mem_takeWhile_imp (List.mem_reverse.1 hc)⟩
  rw [trim, ← List.reverse_append, List.takeWhile_append_dropWhile, List.reverse_reverse,
    List.takeWhile_append_dropWhile]

/-! ## Digits -/

theorem exists_eq_digitChar {c : Char} (h : c.isDigit = true) : ∃ d < 10, c = Nat.digitChar d := by
  have hrange : 48 ≤ c.toNat ∧ c.toNat ≤ 57 := by
    simpa [Char.isDigit, UInt32.le_iff_toNat_le] using h
  refine ⟨c.toNat - 48, by omega, Char.toNat_inj.1 ?_⟩
  rw [Nat.toNat_digitChar_of_lt_ten (by omega)]
  omega

theorem isBlank_of_isDigit {c : Char} (h : c.isDigit = true) : isBlank c = false := by
  obtain ⟨d, hd, rfl⟩ := exists_eq_digitChar h
  clear h
  decide +revert

theorem digitValue?_digitChar {d : Nat} (h : d < 10) :
    digitValue? 10 (Nat.digitChar d) = some d := by
  decide +revert

theorem numberFrom_digits {digits : List Char} (h : ∀ c ∈ digits, c.isDigit = true) (value : Nat) :
    numberFrom 10 value digits = Nat.ofDigitChars 10 digits value := by
  induction digits generalizing value with
  | nil => rfl
  | cons c cs ih =>
    obtain ⟨hc, hcs⟩ := List.forall_mem_cons.1 h
    obtain ⟨d, hd, rfl⟩ := exists_eq_digitChar hc
    rw [Nat.ofDigitChars_cons_digitChar_of_lt_ten hd, ← ih hcs, Nat.mul_comm]
    simp [numberFrom, digitValue?_digitChar hd]

theorem toDigits_injective : Function.Injective (Nat.toDigits 10) :=
  Function.LeftInverse.injective (g := (Nat.ofDigitChars 10 · 0)) fun _ ↦
    Nat.ofDigitChars_ten_toDigits

/-- A number in decimal digits, behind some zeros. -/
def padded (zeros number : Nat) : List Char := List.replicate zeros '0' ++ Nat.toDigits 10 number

theorem isDigit_of_mem_padded {zeros number : Nat} {c : Char} (h : c ∈ padded zeros number) :
    c.isDigit = true := by
  rcases List.mem_append.1 h with hzero | hdigit
  · rw [List.eq_of_mem_replicate hzero]
    rfl
  · exact Nat.isDigit_of_mem_toDigits (by decide) (Nat.le_refl 10) hdigit

theorem padded_ne_nil (zeros number : Nat) : padded zeros number ≠ [] :=
  List.append_ne_nil_of_right_ne_nil _ Nat.toDigits_ne_nil

theorem numberFrom_padded (zeros number : Nat) : numberFrom 10 0 (padded zeros number) = number := by
  rw [numberFrom_digits fun c hc ↦ isDigit_of_mem_padded hc, padded, Nat.ofDigitChars_append,
    Nat.ofDigitChars_replicate_zero, Nat.mul_zero, Nat.ofDigitChars_ten_toDigits]

/-- One more digit follows the digits of a number, or makes its zero one of the zeros in front. -/
theorem exists_eq_padded {digits : List Char} (hne : digits ≠ [])
    (h : ∀ c ∈ digits, c.isDigit = true) : ∃ zeros number, digits = padded zeros number := by
  induction digits using List.reverseRecOn with
  | nil => exact absurd rfl hne
  | append_singleton cs c ih =>
    simp only [List.mem_append, List.mem_singleton, or_imp, forall_and, forall_eq] at h
    obtain ⟨d, hd, rfl⟩ := exists_eq_digitChar h.2
    by_cases hcs : cs = []
    · exact ⟨0, d, by simp [hcs, padded, Nat.toDigits_of_lt_base hd]⟩
    obtain ⟨zeros, number, rfl⟩ := ih hcs h.1
    rcases Nat.eq_zero_or_pos number with rfl | hpos
    · refine ⟨zeros + 1, d, ?_⟩
      rw [padded, padded, Nat.toDigits_zero, Nat.toDigits_of_lt_base hd, List.replicate_succ']
    · refine ⟨zeros, 10 * number + d, ?_⟩
      rw [padded, padded, List.append_assoc, ← Nat.toDigits_of_lt_base hd,
        Nat.toDigits_append_toDigits (by decide) hpos hd]

end LocalizedAccessors.Text
