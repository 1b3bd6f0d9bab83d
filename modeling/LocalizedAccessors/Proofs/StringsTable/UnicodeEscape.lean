import LocalizedAccessors.Proofs.StringsTable.Reading
import Mathlib.Algebra.Group.Nat.Defs
import Mathlib.Data.List.TakeWhile
import Mathlib.Data.Set.List

/-!
# Unicode escapes

A Unicode escape in a quoted string has four digits that number a character, and stands for it. It
may also be written in another way: without digits, with fewer than four, or with four that number
no character. Such an escape ought to stay as it is written, but that only holds of the letter `U`,
and not if there are digits but fewer than four. Whatever an escape is read as, the text in front of
it and the text behind it are read as if it were not there.
-/

namespace LocalizedAccessors.StringsTable

/-- What stands between the opening quote of a string and a place in it where a character begins:
every quote in it is behind a backslash, and every backslash is in front of something. -/
inductive Inside : List Char → Prop where
  | start : Inside []
  | plain {c : Char} {rest : List Char} (h : c ≠ '\"' ∧ c ≠ '\\') : Inside rest → Inside (c :: rest)
  | escaped {c : Char} {rest : List Char} : Inside rest → Inside ('\\' :: c :: rest)

theorem preceded_append (front back : List Char) (text : List Char × List Char) :
    preceded (front ++ back) text = preceded front (preceded back text) := by
  simp [preceded]

/-! ## Digits -/

theorem HexDigit.written_plain (digit : HexDigit) :
    digit.written ≠ '\"' ∧ digit.written ≠ '\\' := by
  obtain ⟨value, upper⟩ := digit
  revert value upper
  decide

theorem exists_written_of_isHexDigit {c : Char} (h : Text.isHexDigit c = true) :
    ∃ digit : HexDigit, digit.written = c := by
  have hsmall : c.toNat < 128 := by
    by_contra hlarge
    have hafter {d : Char} (hd : d.toNat < 128) : ¬c ≤ d := fun hle ↦
      hlarge (Nat.lt_of_le_of_lt (UInt32.le_iff_toNat_le.1 hle) hd)
    simp [Text.isHexDigit, Text.digitValue?, hafter] at h
  have hdigits : ∀ code < 128, Text.isHexDigit (Char.ofNat code) = true →
      ∃ value upper, HexDigit.written ⟨value, upper⟩ = Char.ofNat code := by decide +kernel
  obtain ⟨value, upper, hwritten⟩ := hdigits c.toNat hsmall (by rwa [Char.ofNat_toNat])
  exact ⟨⟨value, upper⟩, by rw [hwritten, Char.ofNat_toNat]⟩

theorem escapeDigits_eq (cs : List Char) :
    escapeDigits cs = (cs.takeWhile Text.isHexDigit).take 4 := List.take_takeWhile.symm

/-- The digits of an escape are those that it would have at the end, unless another one follows. -/
theorem escapeDigits_append_of_head {next : List Char}
    (h : ∀ c ∈ next.head?, Text.isHexDigit c = false) (cs : List Char) :
    escapeDigits (cs ++ next) = escapeDigits cs := by
  have hnext : next.takeWhile Text.isHexDigit = [] := by
    cases next with
    | nil => rfl
    | cons c next => simp [h c rfl]
  rw [escapeDigits_eq, escapeDigits_eq, List.takeWhile_append, hnext, List.append_nil]
  split
  · next hall => rw [(List.takeWhile_prefix _).eq_of_length hall]
  · rfl

theorem exists_digits (cs : List Char) : ∃ (digits : List HexDigit) (rest : List Char),
    cs = digits.map HexDigit.written ++ rest ∧
      escapeDigits cs = digits.map HexDigit.written ∧ digits.length ≤ 4 := by
  have hhex : escapeDigits cs ∈ Set.range (List.map HexDigit.written) := by
    rw [Set.range_list_map]
    exact fun c hc ↦ exists_written_of_isHexDigit (List.mem_takeWhile_imp hc)
  obtain ⟨digits, hdigits⟩ := hhex
  obtain ⟨rest, hrest⟩ : escapeDigits cs <+: cs :=
    (List.takeWhile_prefix _).trans (List.take_prefix 4 cs)
  have hlength : (escapeDigits cs).length ≤ 4 := by
    rw [escapeDigits_eq]
    exact List.length_take_le 4 _
  rw [← hdigits] at hrest hlength
  exact ⟨digits, rest, hrest.symm, hdigits.symm, by simpa using hlength⟩

theorem quoted_digits (digits : List HexDigit) (rest : List Char) :
    quoted (digits.map HexDigit.written ++ rest) =
      preceded (digits.map HexDigit.written) (quoted rest) := by
  induction digits with
  | nil => rfl
  | cons digit digits ih =>
    have hfirst := quoted_glyph (.raw digit.written digit.written_plain)
      (digits.map HexDigit.written ++ rest)
    rw [ih] at hfirst
    exact hfirst.trans (preceded_append [digit.written] _ _).symm

/-! ## The text around an escape -/

theorem Inside.tail {c : Char} {rest : List Char} (inside : Inside (c :: rest)) (h : c ≠ '\\') :
    Inside rest := by
  cases inside with
  | plain _ hrest => exact hrest
  | escaped => exact absurd rfl h

theorem Inside.behind_digits {digits : List HexDigit} {rest : List Char}
    (inside : Inside (digits.map HexDigit.written ++ rest)) : Inside rest := by
  induction digits with
  | nil => exact inside
  | cons digit digits ih => exact ih (inside.tail digit.written_plain.2)

theorem quoted_unicode {letter : Char} (h : letter = 'U' ∨ letter = 'u') {digits : List HexDigit}
    {rest : List Char}
    (hdigits : escapeDigits (digits.map HexDigit.written ++ rest) = digits.map HexDigit.written) :
    quoted ('\\' :: letter :: (digits.map HexDigit.written ++ rest)) =
      preceded (unicodeEscape (digits.map HexDigit.written)) (quoted rest) := by
  rw [quoted, if_pos (by simpa using h), hdigits, List.drop_left]

/-- What is read in front of a place does not depend on what follows, as long as no digit does. -/
theorem quoted_append {front : List Char} (inside : Inside front) {next : List Char}
    (h : ∀ c ∈ next.head?, Text.isHexDigit c = false) :
    quoted (front ++ next) = preceded (quoted front).1 (quoted next) := by
  induction hlength : front.length using Nat.strongRecOn generalizing front with
  | ind length ih =>
    subst hlength
    cases inside with
    | start => simp [quoted, preceded]
    | @plain c rest hc hrest =>
      have hfirst (behind : List Char) : quoted (c :: behind) = preceded [c] (quoted behind) :=
        quoted_glyph (.raw c hc) behind
      rw [List.cons_append, hfirst, hfirst, ih _ (Nat.lt_succ_self _) hrest rfl]
      rfl
    | @escaped c rest hrest =>
      have hlt : rest.length < ('\\' :: c :: rest).length := Nat.lt_add_of_pos_right Nat.two_pos
      rw [List.cons_append, List.cons_append]
      by_cases hunicode : c = 'U' ∨ c = 'u'
      · obtain ⟨digits, behind, rfl, hdigits, -⟩ := exists_digits rest
        have hwhole := (escapeDigits_append_of_head h _).trans hdigits
        rw [List.append_assoc] at hwhole ⊢
        have hbehind :
            behind.length < ('\\' :: c :: (digits.map HexDigit.written ++ behind)).length := by
          simp only [List.length_cons, List.length_append]
          omega
        rw [quoted_unicode hunicode hwhole, quoted_unicode hunicode hdigits,
          ih _ hbehind hrest.behind_digits rfl]
        exact (preceded_append _ _ _).symm
      · have hsimple : c ≠ 'U' ∧ c ≠ 'u' := not_or.1 hunicode
        rw [quoted_escape c _ hsimple, quoted_escape c _ hsimple, ih _ hlt hrest rfl]
        rfl

/-! ## Escapes -/

theorem HexDigit.number_lt (front : Nat) (digits : List HexDigit) :
    number front digits < (front + 1) * 16 ^ digits.length := by
  induction digits generalizing front with
  | nil => simp [number]
  | cons digit digits ih =>
    have hdigit := digit.value.isLt
    calc
      number front (digit :: digits) < (16 * front + digit.value + 1) * 16 ^ digits.length := ih _
      _ ≤ (16 * (front + 1)) * 16 ^ digits.length := Nat.mul_le_mul_right _ (by omega)
      _ = (front + 1) * 16 ^ (digit :: digits).length := by
        rw [List.length_cons, Nat.pow_succ', ← Nat.mul_assoc, Nat.mul_comm 16]

theorem unicodeEscape_of_valid {digits : List HexDigit} (hne : digits ≠ [])
    (valid : (HexDigit.number 0 digits).isValidChar) :
    unicodeEscape (digits.map HexDigit.written) = [Char.ofNat (HexDigit.number 0 digits)] := by
  simp only [unicodeEscape, numberFrom_written]
  rw [if_pos ⟨by simpa using hne, valid⟩]

theorem unicodeEscape_of_not_valid {digits : List HexDigit}
    (h : digits = [] ∨ ¬(HexDigit.number 0 digits).isValidChar) :
    unicodeEscape (digits.map HexDigit.written) =
      '\\' :: 'U' :: digits.map HexDigit.written := by
  simp only [unicodeEscape, numberFrom_written]
  rw [if_neg]
  rintro ⟨hne, valid⟩
  exact h.elim (fun hnil ↦ hne (by simp [hnil])) fun hinvalid ↦ hinvalid valid

/-- Four digits that number a character. -/
def CharacterCode.ofDigits (digits : List HexDigit) (length_eq : digits.length = 4)
    (valid : (HexDigit.number 0 digits).isValidChar) : CharacterCode where
  digits
  length_eq
  character := Char.ofNat (HexDigit.number 0 digits)
  number_eq := by
    rw [Char.ofNat, dif_pos valid]
    rfl

/-- Whether four digits that number a character stand at the beginning of some characters. -/
def BeginsWithCode (cs : List Char) : Prop :=
  ∃ (code : CharacterCode) (rest : List Char), cs = code.digits.map HexDigit.written ++ rest

/-- How an escape ought to be read: as the character that the four digits behind its letter number,
or else as it stands. Either way, what is around it is read as if it were not there. -/
structure ReadsEscape (front : List Char) (letter : Char) (behind : List Char) : Prop where
  character : ∀ (code : CharacterCode) (rest : List Char),
    behind = code.digits.map HexDigit.written ++ rest →
      quoted (front ++ '\\' :: letter :: behind) =
        preceded ((quoted front).1 ++ [code.character]) (quoted rest)
  verbatim : ¬BeginsWithCode behind →
    quoted (front ++ '\\' :: letter :: behind) =
      preceded ((quoted front).1 ++ ['\\', letter]) (quoted behind)

variable {front behind : List Char} {letter : Char}

theorem quoted_append_unicode (inside : Inside front) (h : letter = 'U' ∨ letter = 'u')
    {digits : List HexDigit} {rest : List Char}
    (hdigits : escapeDigits (digits.map HexDigit.written ++ rest) = digits.map HexDigit.written) :
    quoted (front ++ '\\' :: letter :: (digits.map HexDigit.written ++ rest)) =
      preceded ((quoted front).1 ++ unicodeEscape (digits.map HexDigit.written)) (quoted rest) := by
  have hhead : ∀ c ∈ ('\\' :: letter :: (digits.map HexDigit.written ++ rest)).head?,
      Text.isHexDigit c = false := by
    rintro c ⟨⟩
    decide
  rw [quoted_append inside hhead, quoted_unicode h hdigits, preceded_append]

theorem unicodeEscape_eq_iff {digits : List HexDigit} {rest : List Char}
    (hlength : digits.length ≤ 4)
    (h : ¬BeginsWithCode (digits.map HexDigit.written ++ rest)) :
    unicodeEscape (digits.map HexDigit.written) =
        '\\' :: letter :: digits.map HexDigit.written ↔
      letter = 'U' ∧ (digits = [] ∨ digits.length = 4) := by
  by_cases hnil : digits = []
  · rw [unicodeEscape_of_not_valid (.inl hnil)]
    simp [hnil, eq_comm]
  by_cases hfour : digits.length = 4
  · have hinvalid : ¬(HexDigit.number 0 digits).isValidChar := fun valid ↦
      h ⟨.ofDigits digits hfour valid, rest, rfl⟩
    rw [unicodeEscape_of_not_valid (.inr hinvalid)]
    simp [hfour, eq_comm]
  · have hbound : HexDigit.number 0 digits < 16 ^ 3 := by
      have hnumber := HexDigit.number_lt 0 digits
      rw [Nat.zero_add, Nat.one_mul] at hnumber
      exact hnumber.trans_le (Nat.pow_le_pow_right (by decide) (by omega))
    have hvalid : (HexDigit.number 0 digits).isValidChar :=
      .inl (Nat.lt_trans hbound (by decide))
    rw [unicodeEscape_of_valid hnil hvalid]
    simp [hnil, hfour]

/-- An escape stays as it is written exactly if what it contributes is what is written. -/
theorem quoted_eq_verbatim_iff (inside : Inside front) (h : letter = 'U' ∨ letter = 'u')
    {digits : List HexDigit} {rest : List Char}
    (hdigits : escapeDigits (digits.map HexDigit.written ++ rest) = digits.map HexDigit.written) :
    quoted (front ++ '\\' :: letter :: (digits.map HexDigit.written ++ rest)) =
        preceded ((quoted front).1 ++ ['\\', letter])
          (quoted (digits.map HexDigit.written ++ rest)) ↔
      unicodeEscape (digits.map HexDigit.written) =
        '\\' :: letter :: digits.map HexDigit.written := by
  rw [quoted_append_unicode inside h hdigits, quoted_digits]
  rw [preceded_append, preceded_append]
  simp only [preceded, Prod.mk.injEq, and_true, List.append_cancel_left_eq]
  rw [← List.append_assoc, List.append_left_inj, List.cons_append, List.singleton_append]

/-- An escape is read as it ought to be if its digits number a character, and else exactly if its
letter is `U` and it has no digits or four. -/
theorem readsEscape_iff (inside : Inside front) (h : letter = 'U' ∨ letter = 'u') :
    ReadsEscape front letter behind ↔ BeginsWithCode behind ∨
      letter = 'U' ∧ (escapeDigits behind = [] ∨ (escapeDigits behind).length = 4) := by
  have hcharacter : ∀ (code : CharacterCode) (rest : List Char),
      behind = code.digits.map HexDigit.written ++ rest →
        quoted (front ++ '\\' :: letter :: behind) =
          preceded ((quoted front).1 ++ [code.character]) (quoted rest) := by
    rintro code rest rfl
    rw [quoted_append_unicode inside h (escapeDigits_append code rest), unicodeEscape_written]
  by_cases hcode : BeginsWithCode behind
  · exact iff_of_true ⟨hcharacter, fun hnone ↦ absurd hcode hnone⟩ (.inl hcode)
  · obtain ⟨digits, rest, rfl, hdigits, hlength⟩ := exists_digits behind
    have hverbatim := (quoted_eq_verbatim_iff inside h hdigits).trans
      (unicodeEscape_eq_iff hlength hcode)
    rw [or_iff_right hcode, hdigits, List.length_map, List.map_eq_nil_iff, ← hverbatim]
    exact ⟨fun reads ↦ reads.verbatim hcode, fun hread ↦ ⟨hcharacter, fun _ ↦ hread⟩⟩

/-- The second half of a pair of escapes for one character beyond the first 65536. -/
theorem readsEscape_surrogate :
    Inside ['\\', 'U', 'D', '8', '3', 'D'] ∧
      ReadsEscape ['\\', 'U', 'D', '8', '3', 'D'] 'U' ['D', 'E', '0', '0', '\"'] := by
  have inside : Inside ['\\', 'U', 'D', '8', '3', 'D'] :=
    .escaped <| .plain (by decide) <| .plain (by decide) <| .plain (by decide) <|
      .plain (by decide) .start
  exact ⟨inside, (readsEscape_iff inside (.inl rfl)).2 (.inr ⟨rfl, .inr (by decide)⟩)⟩

/-- An escape without digits changes its letter to upper case. -/
theorem not_readsEscape : ¬∀ (front behind : List Char) (letter : Char), Inside front →
    letter = 'U' ∨ letter = 'u' → ReadsEscape front letter behind := by
  intro h
  have hnone : ¬BeginsWithCode [] := by
    rintro ⟨code, rest, hcode⟩
    have hlength : 0 = 4 + rest.length := by simpa [code.length_eq] using congrArg List.length hcode
    omega
  have hverbatim := (h [] [] 'u' .start (.inr rfl)).verbatim hnone
  have hdigits : escapeDigits (([] : List HexDigit).map HexDigit.written ++ []) = [] := by decide
  have hwritten := (quoted_eq_verbatim_iff .start (.inr rfl) hdigits).1 hverbatim
  exact absurd hwritten (by decide)

end LocalizedAccessors.StringsTable
