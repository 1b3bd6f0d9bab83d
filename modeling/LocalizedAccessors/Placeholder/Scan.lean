import LocalizedAccessors.Placeholder.Kind
import LocalizedAccessors.Text.DecimalDigit

/-!
# Placeholders in a format string

A placeholder is a percent sign followed by an optional position (`2$`), sign, length modifiers,
padding, width and precision, and a conversion character; `%%` is an escaped percent sign. Every
optional part begins with a character that no later part of the same placeholder could take in its
stead, except a position, which is told from a width by the dollar sign after its digits. So a
placeholder is read from left to right without going back, and what is no placeholder is skipped
one character at a time.
-/

namespace LocalizedAccessors.Placeholder

open Text

/-- The characters that end a placeholder. -/
def conversions : List Char := "@dDiuUxXoOfFeEgGcCsSpaAn".toList

/-- All conversions have a kind but `i` and `n`. The percent sign has one too, though no placeholder
ends with it; other characters have none. -/
theorem isSome_ofConversion? (c : Char) :
    (ArgumentKind.ofConversion? c).isSome = true ↔
      c = '%' ∨ c ∈ conversions ∧ c ≠ 'i' ∧ c ≠ 'n' := by
  constructor
  · fun_cases ArgumentKind.ofConversion? c
    case case24 => exact fun h ↦ absurd h Bool.false_ne_true
    all_goals decide
  · have hall : ∀ c ∈ conversions,
        (c == 'i' || c == 'n' || (ArgumentKind.ofConversion? c).isSome) = true :=
      List.all_eq_true.1 (by decide)
    rintro (rfl | ⟨hmem, hi, hn⟩)
    · rfl
    · simpa [hi, hn] using hall c hmem

/-- The rest after a position `digits$`, or all the characters if they do not begin with one. -/
def afterPosition (cs : List Char) : List Char :=
  match cs.takeWhile isDecimalDigit, cs.dropWhile isDecimalDigit with
  | _ :: _, '$' :: rest => rest
  | _, _ => cs

/-- The rest after at most `n` leading characters of the class. -/
def afterUpTo (n : Nat) (isIn : Char → Bool) : List Char → List Char
  | [] => []
  | c :: rest =>
    match n with
    | 0 => c :: rest
    | m + 1 => if isIn c then afterUpTo m isIn rest else c :: rest

/-- The rest after a padding: a blank, a zero, or an apostrophe and any character of the line. -/
def afterPadding : List Char → List Char
  | ' ' :: rest => rest
  | '0' :: rest => rest
  | '\'' :: c :: rest => if c == '\n' then '\'' :: c :: rest else rest
  | cs => cs

/-- The rest after a precision `.digits`, or all the characters if they do not begin with one. -/
def afterPrecision (cs : List Char) : List Char :=
  match cs with
  | '.' :: c :: rest => if isDecimalDigit c then rest.dropWhile isDecimalDigit else cs
  | _ => cs

/-- The rest after everything that may stand between the percent sign and the conversion. -/
def afterModifiers (cs : List Char) : List Char :=
  let signed := afterUpTo 1 (fun c ↦ c == '+' || c == '-') (afterPosition cs)
  let sized := afterUpTo 2 (fun c ↦ c == 'l' || c == 'h') signed
  let lengthened := afterUpTo 1 "qLztj".toList.contains sized
  afterPrecision ((afterPadding lengthened).dropWhile isDecimalDigit)

/-- What a percent sign begins. -/
inductive Word where
  | escapedPercent
  | specifier (conversion : Char)
  deriving DecidableEq, Repr

/-- The word whose percent sign was just read, and the rest after it. -/
def word? : List Char → Option (Word × List Char)
  | '%' :: rest => some (.escapedPercent, rest)
  | cs =>
    match afterModifiers cs with
    | c :: rest => if conversions.contains c then some (.specifier c, rest) else none
    | [] => none

theorem afterPosition_suffix (cs : List Char) : afterPosition cs <:+ cs := by
  unfold afterPosition
  split
  · next rest _ h =>
    exact (List.suffix_cons '$' rest).trans (h ▸ List.dropWhile_suffix isDecimalDigit)
  · exact List.suffix_refl cs

theorem afterUpTo_suffix (n : Nat) (isIn : Char → Bool) (cs : List Char) :
    afterUpTo n isIn cs <:+ cs := by
  induction cs generalizing n with
  | nil => simp [afterUpTo]
  | cons c rest ih =>
    cases n with
    | zero => exact List.suffix_refl _
    | succ m =>
      unfold afterUpTo
      simp only
      split
      · exact (ih m).trans (List.suffix_cons c rest)
      · exact List.suffix_refl _

theorem afterPadding_suffix (cs : List Char) : afterPadding cs <:+ cs := by
  unfold afterPadding
  split
  · exact List.suffix_cons _ _
  · exact List.suffix_cons _ _
  · next c rest =>
    split
    · exact List.suffix_refl _
    · exact (List.suffix_cons c rest).trans (List.suffix_cons _ _)
  · exact List.suffix_refl _

theorem afterPrecision_suffix (cs : List Char) : afterPrecision cs <:+ cs := by
  unfold afterPrecision
  split
  · next c rest =>
    split
    · exact ((List.dropWhile_suffix _).trans (List.suffix_cons c rest)).trans
        (List.suffix_cons _ _)
    · exact List.suffix_refl _
  · exact List.suffix_refl _

theorem afterModifiers_suffix (cs : List Char) : afterModifiers cs <:+ cs :=
  (afterPrecision_suffix _).trans <| (List.dropWhile_suffix _).trans <|
    (afterPadding_suffix _).trans <| (afterUpTo_suffix ..).trans <|
    (afterUpTo_suffix ..).trans <| (afterUpTo_suffix ..).trans <| afterPosition_suffix cs

/-- A word takes at least its last character. -/
theorem word?_length_lt {cs rest : List Char} {word : Word}
    (h : word? cs = some (word, rest)) : rest.length < cs.length := by
  unfold word? at h
  split at h
  · simp only [Option.some.injEq, Prod.mk.injEq] at h
    simp [h.2]
  · split at h
    · next c tail htail =>
      split at h
      · simp only [Option.some.injEq, Prod.mk.injEq] at h
        have hle := (afterModifiers_suffix cs).length_le
        rw [htail, List.length_cons, h.2] at hle
        exact hle
      · exact absurd h (by simp)
    · exact absurd h (by simp)

/-- The words of a format string in textual order. -/
def words : List Char → List Word
  | [] => []
  | '%' :: cs =>
    match _h : word? cs with
    | some (word, rest) => word :: words rest
    | none => words cs
  | _ :: cs => words cs
termination_by cs => cs.length
decreasing_by
  · exact Nat.lt_succ_of_lt (word?_length_lt _h)
  · exact Nat.lt_succ_self _
  · exact Nat.lt_succ_self _

def Word.kind? : Word → Option ArgumentKind
  | .escapedPercent => none
  | .specifier conversion => ArgumentKind.ofConversion? conversion

/-- The kinds of the arguments that a format string takes, in textual order. Positions do not
reorder them. -/
def classify (format : String) : List ArgumentKind :=
  (words format.toList).filterMap Word.kind?

end LocalizedAccessors.Placeholder
