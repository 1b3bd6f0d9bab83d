import LocalizedAccessors.Placeholder.Scan
import Mathlib.Data.Bool.AllAny
import Mathlib.Data.List.TakeWhile

/-!
# Specifiers of the grammar

A specifier as data, part by part, and how it is written. A specifier is read as a whole whatever
follows it: none of its parts can begin with a character that an earlier part could have taken, save
that a zero in front of a width may as well be a padding.
-/

namespace LocalizedAccessors.Placeholder

open Text

/-- Decimal digits, of which there is at least one. -/
structure Digits where
  chars : List Char
  ne_nil : chars ≠ []
  isDigit : ∀ c ∈ chars, isDecimalDigit c = true

/-- What a placeholder is filled up with. -/
inductive Padding where
  | blank
  | zero
  | character (c : Char) (inLine : c ≠ '\n')

structure Specifier where
  position : Option Digits
  sign : Option Char
  lengths : List Char
  modifier : Option Char
  padding : Option Padding
  width : List Char
  precision : Option Digits
  conversion : Char
  sign_mem : ∀ c ∈ sign, c ∈ ['+', '-']
  lengths_le : lengths.length ≤ 2
  lengths_mem : ∀ c ∈ lengths, c ∈ ['l', 'h']
  modifier_mem : ∀ c ∈ modifier, c ∈ ['q', 'L', 'z', 't', 'j']
  width_isDigit : ∀ c ∈ width, isDecimalDigit c = true
  conversion_mem : conversion ∈ conversions

/-- A position as it is written, with its dollar sign. -/
def writtenPosition : Option Digits → List Char
  | some digits => digits.chars ++ ['$']
  | none => []

def writtenPrecision : Option Digits → List Char
  | some digits => '.' :: digits.chars
  | none => []

def writtenPadding : Option Padding → List Char
  | some .blank => [' ']
  | some .zero => ['0']
  | some (.character c _) => ['\'', c]
  | none => []

namespace Specifier

/-- The end of a specifier, from its width on. -/
def ending (specifier : Specifier) : List Char :=
  specifier.width ++ writtenPrecision specifier.precision ++ [specifier.conversion]

def behindModifier (specifier : Specifier) : List Char :=
  writtenPadding specifier.padding ++ specifier.ending

def behindLengths (specifier : Specifier) : List Char :=
  specifier.modifier.toList ++ specifier.behindModifier

def behindSign (specifier : Specifier) : List Char :=
  specifier.lengths ++ specifier.behindLengths

def behindPosition (specifier : Specifier) : List Char :=
  specifier.sign.toList ++ specifier.behindSign

/-- All that follows the percent sign of a specifier. -/
def body (specifier : Specifier) : List Char :=
  writtenPosition specifier.position ++ specifier.behindPosition

def written (specifier : Specifier) : List Char := '%' :: specifier.body

/-- A specifier with another position. -/
def placed (specifier : Specifier) (position : Option Digits) : Specifier :=
  { specifier with position }

theorem written_placed {specifier : Specifier} (h : specifier.position = none)
    (position : Option Digits) :
    (specifier.placed position).written = '%' :: (writtenPosition position ++ specifier.body) := by
  have hbody : specifier.body = specifier.behindPosition := by
    rw [body, h, writtenPosition, List.nil_append]
  rw [hbody]
  rfl

end Specifier

/-! ## Where a part begins -/

/-- Whether characters begin with a digit or with one of some marks, if there are any. -/
def Opens (marks cs : List Char) : Prop := ∀ c ∈ cs.head?, isDecimalDigit c = true ∨ c ∈ marks

theorem Opens.of_forall {marks cs : List Char}
    (h : ∀ c ∈ cs, isDecimalDigit c = true ∨ c ∈ marks) : Opens marks cs :=
  fun c hc ↦ h c (List.mem_of_mem_head? hc)

theorem Opens.of_mem {marks rest : List Char} {c : Char} (h : c ∈ marks) :
    Opens marks (c :: rest) := by
  rintro d ⟨⟩
  exact .inr h

theorem Opens.append {marks front rest : List Char} (hfront : Opens marks front)
    (hrest : Opens marks rest) : Opens marks (front ++ rest) := by
  cases front with
  | nil => exact hrest
  | cons c front => exact hfront

theorem Opens.position {marks rest : List Char} (position : Option Digits)
    (hrest : Opens marks rest) : Opens marks (writtenPosition position ++ rest) := by
  cases position with
  | none => exact hrest
  | some digits =>
    obtain ⟨d, others, hdigits⟩ := List.exists_cons_of_ne_nil digits.ne_nil
    rw [writtenPosition, hdigits]
    rintro c ⟨⟩
    exact .inl (digits.isDigit d (by simp [hdigits]))

theorem Opens.mono {marks others cs : List Char} (h : Opens marks cs) (hsub : marks ⊆ others) :
    Opens others cs := fun c hc ↦ (h c hc).imp_right fun hmem ↦ hsub hmem

theorem Opens.notMem (avoided : List Char) {marks cs : List Char} (h : Opens marks cs)
    (havoided : avoided.all (fun c ↦ isDecimalDigit c = false ∧ c ∉ marks) = true) :
    ∀ c ∈ cs.head?, c ∉ avoided := by
  intro c hc hmem
  obtain ⟨hdigit, hmarks⟩ := List.all_iff_forall_prop.1 havoided c hmem
  rcases h c hc with hd | hm
  · simp [hdigit] at hd
  · exact hmarks hm

/-- Whether characters do not begin with a position, as a dollar sign is not their first character
other than a digit. -/
def Unpositioned (cs : List Char) : Prop := ∀ c ∈ (cs.dropWhile isDecimalDigit).head?, c ≠ '$'

theorem Unpositioned.append {front rest : List Char} (hfront : ∀ c ∈ front, c ≠ '$')
    (hrest : Unpositioned rest) : Unpositioned (front ++ rest) := by
  induction front with
  | nil => exact hrest
  | cons c front ih =>
    obtain ⟨hc, hothers⟩ := List.forall_mem_cons.1 hfront
    unfold Unpositioned
    rw [List.cons_append, List.dropWhile_cons]
    split
    · exact ih hothers
    · rintro d ⟨⟩
      exact hc

theorem Unpositioned.of_head {c : Char} {rest : List Char} (hdigit : isDecimalDigit c = false)
    (hdollar : c ≠ '$') : Unpositioned (c :: rest) := by
  rw [Unpositioned, List.dropWhile_cons_of_neg (by simp [hdigit])]
  rintro d ⟨⟩
  exact hdollar

theorem ne_dollar_of_isDigit {c : Char} (h : isDecimalDigit c = true) : c ≠ '$' := by
  rintro rfl
  exact absurd h (by decide)

theorem isDigit_conversion {c : Char} (h : c ∈ conversions) : isDecimalDigit c = false :=
  have hall : ∀ d ∈ conversions, isDecimalDigit d = false := List.all_iff_forall_prop.1 (by decide)
  hall c h

/-! ## Reading the parts -/

theorem dropWhile_digits_append {digits rest : List Char}
    (hdigits : ∀ c ∈ digits, isDecimalDigit c = true)
    (hrest : ∀ c ∈ rest.head?, isDecimalDigit c = false) :
    (digits ++ rest).dropWhile isDecimalDigit = rest := by
  rw [List.dropWhile_append_of_pos hdigits]
  cases rest with
  | nil => rfl
  | cons c rest => rw [List.dropWhile_cons_of_neg (by simp [hrest c rfl])]

theorem takeWhile_digits_append {digits rest : List Char}
    (hdigits : ∀ c ∈ digits, isDecimalDigit c = true)
    (hrest : ∀ c ∈ rest.head?, isDecimalDigit c = false) :
    (digits ++ rest).takeWhile isDecimalDigit = digits := by
  rw [List.takeWhile_append_of_pos hdigits]
  cases rest with
  | nil => simp
  | cons c rest => rw [List.takeWhile_cons_of_neg (by simp [hrest c rfl]), List.append_nil]

theorem afterUpTo_append {n : Nat} {isIn : Char → Bool} {front rest : List Char}
    (hlength : front.length ≤ n) (hfront : ∀ c ∈ front, isIn c = true)
    (hrest : ∀ c ∈ rest.head?, isIn c = false) : afterUpTo n isIn (front ++ rest) = rest := by
  induction front generalizing n with
  | nil =>
    cases rest with
    | nil => simp [afterUpTo]
    | cons c rest => cases n <;> simp [afterUpTo, hrest c rfl]
  | cons c front ih =>
    cases n with
    | zero => simp at hlength
    | succ n =>
      have hc := hfront c (List.mem_cons_self ..)
      simp only [List.cons_append, afterUpTo, hc, if_true]
      exact ih (Nat.le_of_succ_le_succ hlength) fun d hd ↦ hfront d (List.mem_cons_of_mem _ hd)

theorem afterPosition_of_unpositioned {cs : List Char} (h : Unpositioned cs) :
    afterPosition cs = cs := by
  unfold afterPosition
  split
  · next rest _ hdollar =>
    exact absurd rfl (h '$' (by simp [hdollar]))
  · rfl

theorem afterPosition_append (position : Option Digits) {cs : List Char} (h : Unpositioned cs) :
    afterPosition (writtenPosition position ++ cs) = cs := by
  cases position with
  | none => exact afterPosition_of_unpositioned h
  | some digits =>
    obtain ⟨d, others, hdigits⟩ := List.exists_cons_of_ne_nil digits.ne_nil
    have hdollar : ∀ c ∈ ('$' :: cs).head?, isDecimalDigit c = false := by
      rintro c ⟨⟩
      decide
    rw [writtenPosition, List.append_assoc, List.singleton_append, afterPosition,
      takeWhile_digits_append digits.isDigit hdollar, dropWhile_digits_append digits.isDigit hdollar,
      hdigits]
    rfl

theorem afterPrecision_append (precision : Option Digits) {conversion : Char} {rest : List Char}
    (h : conversion ∈ conversions) :
    afterPrecision (writtenPrecision precision ++ conversion :: rest) = conversion :: rest := by
  have hdigit : ∀ c ∈ (conversion :: rest).head?, isDecimalDigit c = false := by
    rintro c ⟨⟩
    exact isDigit_conversion h
  cases precision with
  | none =>
    have hdot : conversion ≠ '.' := by
      rintro rfl
      exact absurd h (by decide)
    simp [writtenPrecision, afterPrecision, hdot]
  | some digits =>
    obtain ⟨d, others, hdigits⟩ := List.exists_cons_of_ne_nil digits.ne_nil
    have hall := digits.isDigit
    rw [hdigits] at hall
    obtain ⟨hd, hothers⟩ := List.forall_mem_cons.1 hall
    simp only [writtenPrecision, hdigits, List.cons_append, afterPrecision, hd, if_true]
    exact dropWhile_digits_append hothers hdigit

/-- A zero in front of a width is read as a padding, if nothing else is. -/
theorem dropWhile_afterPadding_of_head {cs : List Char} (h : ∀ c ∈ cs.head?, c ∉ [' ', '\'']) :
    (afterPadding cs).dropWhile isDecimalDigit = cs.dropWhile isDecimalDigit := by
  fun_cases afterPadding cs with
  | case1 | case3 | case4 => exact absurd (h _ rfl) (by simp)
  | case2 rest => rw [List.dropWhile_cons_of_pos (by decide)]
  | case5 => rfl

theorem dropWhile_afterPadding (padding : Option Padding) {cs : List Char}
    (h : ∀ c ∈ cs.head?, c ∉ [' ', '\'']) :
    (afterPadding (writtenPadding padding ++ cs)).dropWhile isDecimalDigit =
      cs.dropWhile isDecimalDigit := by
  cases padding with
  | none => exact dropWhile_afterPadding_of_head h
  | some padding =>
    cases padding with
    | blank => rfl
    | zero => rfl
    | character c inLine => simp [writtenPadding, afterPadding, inLine]

/-! ## Reading a specifier -/

namespace Specifier

variable (specifier : Specifier) (rest : List Char)

/-! ### How the parts begin -/

def endingMarks : List Char := '.' :: conversions

def paddingMarks : List Char := ' ' :: '\'' :: endingMarks

def modifierMarks : List Char := ['q', 'L', 'z', 't', 'j'] ++ paddingMarks

def lengthMarks : List Char := ['l', 'h'] ++ modifierMarks

def signMarks : List Char := ['+', '-'] ++ lengthMarks

theorem opens_ending : Opens endingMarks (specifier.ending ++ rest) := by
  simp only [ending, List.append_assoc]
  refine Opens.append (Opens.of_forall fun c hc ↦ .inl (specifier.width_isDigit c hc)) ?_
  cases specifier.precision with
  | none => exact Opens.of_mem (List.mem_cons_of_mem _ specifier.conversion_mem)
  | some digits => exact Opens.of_mem (List.mem_cons_self ..)

theorem opens_behindModifier : Opens paddingMarks (specifier.behindModifier ++ rest) := by
  rw [behindModifier, List.append_assoc]
  refine Opens.append ?_ ((specifier.opens_ending rest).mono (by simp [paddingMarks]))
  rcases specifier.padding with - | - | - | ⟨c, -⟩
  · exact fun _ h ↦ by simp [writtenPadding] at h
  · exact Opens.of_mem (by decide)
  · rintro d ⟨⟩
    decide
  · exact Opens.of_mem (by decide)

theorem opens_behindLengths : Opens modifierMarks (specifier.behindLengths ++ rest) := by
  rw [behindLengths, List.append_assoc]
  have hmodifier : ∀ c ∈ specifier.modifier.toList, c ∈ modifierMarks := fun c hc ↦
    List.mem_append_left _ (specifier.modifier_mem c (Option.mem_toList.1 hc))
  exact Opens.append (Opens.of_forall fun c hc ↦ .inr (hmodifier c hc))
    ((specifier.opens_behindModifier rest).mono (List.subset_append_right ..))

theorem opens_behindSign : Opens lengthMarks (specifier.behindSign ++ rest) := by
  rw [behindSign, List.append_assoc]
  have hlengths : ∀ c ∈ specifier.lengths, c ∈ lengthMarks := fun c hc ↦
    List.mem_append_left _ (specifier.lengths_mem c hc)
  exact Opens.append (Opens.of_forall fun c hc ↦ .inr (hlengths c hc))
    ((specifier.opens_behindLengths rest).mono (List.subset_append_right ..))

theorem opens_behindPosition : Opens signMarks (specifier.behindPosition ++ rest) := by
  rw [behindPosition, List.append_assoc]
  have hsign : ∀ c ∈ specifier.sign.toList, c ∈ signMarks := fun c hc ↦
    List.mem_append_left _ (specifier.sign_mem c (Option.mem_toList.1 hc))
  exact Opens.append (Opens.of_forall fun c hc ↦ .inr (hsign c hc))
    ((specifier.opens_behindSign rest).mono (List.subset_append_right ..))

theorem opens_body : Opens signMarks (specifier.body ++ rest) := by
  rw [body, List.append_assoc]
  exact (specifier.opens_behindPosition rest).position _

theorem unpositioned_ending : Unpositioned (specifier.ending ++ rest) := by
  have hwidth : ∀ c ∈ specifier.width, c ≠ '$' := fun c hc ↦
    ne_dollar_of_isDigit (specifier.width_isDigit c hc)
  have hprecision : ∀ c ∈ writtenPrecision specifier.precision, c ≠ '$' := by
    cases specifier.precision with
    | none => simp [writtenPrecision]
    | some digits =>
      refine List.forall_mem_cons.2 ⟨by decide, fun c hc ↦ ?_⟩
      exact ne_dollar_of_isDigit (digits.isDigit c hc)
  have hconversion : specifier.conversion ≠ '$' := by
    intro heq
    exact absurd (heq ▸ specifier.conversion_mem) (by decide)
  simp only [ending, List.append_assoc]
  refine Unpositioned.append hwidth (Unpositioned.append hprecision ?_)
  exact Unpositioned.of_head (isDigit_conversion specifier.conversion_mem) hconversion

theorem unpositioned_behindModifier : Unpositioned (specifier.behindModifier ++ rest) := by
  have hending := specifier.unpositioned_ending rest
  rw [behindModifier, List.append_assoc]
  rcases specifier.padding with - | - | - | ⟨c, -⟩
  · exact hending
  · exact Unpositioned.of_head (by decide) (by decide)
  · exact @Unpositioned.append ['0'] _ (by simp) hending
  · exact Unpositioned.of_head (by decide) (by decide)

theorem unpositioned_behindPosition : Unpositioned (specifier.behindPosition ++ rest) := by
  have hne : ∀ marks : List Char, '$' ∉ marks → ∀ c ∈ marks, c ≠ '$' := by
    rintro marks hmarks c hc rfl
    exact hmarks hc
  simp only [behindPosition, behindSign, behindLengths, List.append_assoc]
  refine Unpositioned.append (fun c hc ↦ ?_) (Unpositioned.append (fun c hc ↦ ?_)
    (Unpositioned.append (fun c hc ↦ ?_) (specifier.unpositioned_behindModifier rest)))
  · exact hne _ (by decide) c (specifier.sign_mem c (Option.mem_toList.1 hc))
  · exact hne _ (by decide) c (specifier.lengths_mem c hc)
  · exact hne _ (by decide) c (specifier.modifier_mem c (Option.mem_toList.1 hc))

/-! ### One part after the other -/

theorem afterPosition_body :
    afterPosition (specifier.body ++ rest) = specifier.behindPosition ++ rest := by
  rw [body, List.append_assoc]
  exact afterPosition_append _ (specifier.unpositioned_behindPosition rest)

theorem afterUpTo_sign :
    afterUpTo 1 (fun c ↦ c == '+' || c == '-') (specifier.behindPosition ++ rest) =
      specifier.behindSign ++ rest := by
  rw [behindPosition, List.append_assoc]
  refine afterUpTo_append (Option.length_toList_le ..) (fun c hc ↦ ?_) fun c hc ↦ ?_
  · simpa using specifier.sign_mem c (Option.mem_toList.1 hc)
  · simpa using (specifier.opens_behindSign rest).notMem ['+', '-'] (by decide) c hc

theorem afterUpTo_lengths :
    afterUpTo 2 (fun c ↦ c == 'l' || c == 'h') (specifier.behindSign ++ rest) =
      specifier.behindLengths ++ rest := by
  rw [behindSign, List.append_assoc]
  refine afterUpTo_append specifier.lengths_le (fun c hc ↦ ?_) fun c hc ↦ ?_
  · simpa using specifier.lengths_mem c hc
  · simpa using (specifier.opens_behindLengths rest).notMem ['l', 'h'] (by decide) c hc

theorem afterUpTo_modifier :
    afterUpTo 1 "qLztj".toList.contains (specifier.behindLengths ++ rest) =
      specifier.behindModifier ++ rest := by
  rw [behindLengths, List.append_assoc]
  refine afterUpTo_append (Option.length_toList_le ..) (fun c hc ↦ ?_) fun c hc ↦ ?_
  · simpa using specifier.modifier_mem c (Option.mem_toList.1 hc)
  · simpa using
      (specifier.opens_behindModifier rest).notMem ['q', 'L', 'z', 't', 'j'] (by decide) c hc

theorem afterPrecision_behindModifier :
    afterPrecision ((afterPadding (specifier.behindModifier ++ rest)).dropWhile isDecimalDigit) =
      specifier.conversion :: rest := by
  have hhead := (specifier.opens_ending rest).notMem [' ', '\''] (by decide)
  rw [behindModifier, List.append_assoc, dropWhile_afterPadding _ hhead, ending, List.append_assoc,
    List.append_assoc, dropWhile_digits_append specifier.width_isDigit]
  · exact afterPrecision_append _ specifier.conversion_mem
  · cases specifier.precision with
    | none =>
      rintro c ⟨⟩
      exact isDigit_conversion specifier.conversion_mem
    | some digits =>
      rintro c ⟨⟩
      decide

/-- The conversion of a specifier is found behind all that stands before it. -/
theorem afterModifiers_body :
    afterModifiers (specifier.body ++ rest) = specifier.conversion :: rest := by
  simp only [afterModifiers, afterPosition_body, afterUpTo_sign, afterUpTo_lengths,
    afterUpTo_modifier, afterPrecision_behindModifier]

theorem getLast?_body : specifier.body.getLast? = some specifier.conversion := by
  simp [body, behindPosition, behindSign, behindLengths, behindModifier, ending]

/-- A specifier is read as a whole. -/
theorem word?_body :
    word? (specifier.body ++ rest) = some (.specifier specifier.conversion, rest) := by
  have hpercent := (specifier.opens_body rest).notMem ['%'] (by decide)
  have hafter := specifier.afterModifiers_body rest
  have hconversion : conversions.contains specifier.conversion = true := by
    simpa using specifier.conversion_mem
  unfold word?
  split
  · next heq => exact absurd (hpercent '%' (by simp [heq])) (by simp)
  · simp only [hafter, hconversion, if_true]

end Specifier

/-! ## Words of a text -/

theorem words_append_of_notMem {cs : List Char} (h : '%' ∉ cs) (rest : List Char) :
    words (cs ++ rest) = words rest := by
  induction cs with
  | nil => rfl
  | cons c cs ih =>
    obtain ⟨hc, hcs⟩ := not_or.1 (mt List.mem_cons.2 h)
    rw [List.cons_append, words, ih hcs]
    exact fun heq ↦ hc heq.symm

theorem words_of_word? {cs rest : List Char} {word : Word} (h : word? cs = some (word, rest)) :
    words ('%' :: cs) = word :: words rest := by
  rw [words]
  split
  · next heq =>
    rw [h] at heq
    obtain ⟨rfl, rfl⟩ := Prod.mk.inj (Option.some.inj heq)
    rfl
  · next heq => simp [h] at heq

theorem words_of_word?_eq_none {cs : List Char} (h : word? cs = none) :
    words ('%' :: cs) = words cs := by
  rw [words]
  split
  · next heq => simp [h] at heq
  · rfl

theorem words_specifier (specifier : Specifier) (rest : List Char) :
    words (specifier.written ++ rest) = .specifier specifier.conversion :: words rest :=
  words_of_word? (specifier.word?_body rest)

end LocalizedAccessors.Placeholder
