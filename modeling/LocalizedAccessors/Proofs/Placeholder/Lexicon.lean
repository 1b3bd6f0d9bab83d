import LocalizedAccessors.Proofs.Placeholder.Specifier

/-!
# The lexicon of format strings

The words that a format string is read by are the escaped percent sign and all specifiers of the
grammar. No word begins with another, so at every place of a text there is at most one, and reading
comes to the same as scanning from left to right: take the word that stands here, or else leave out
one character.
-/

namespace LocalizedAccessors.Placeholder

open Text

/-- A word of a format string. -/
inductive Lexeme where
  | escapedPercent
  | specifier (placeholder : Specifier)

namespace Lexeme

def written : Lexeme → List Char
  | escapedPercent => ['%', '%']
  | specifier placeholder => placeholder.written

/-- What reading tells of the word. -/
def word : Lexeme → Word
  | escapedPercent => .escapedPercent
  | specifier placeholder => .specifier placeholder.conversion

/-- The argument that the word stands for. -/
def kind? : Lexeme → Option ArgumentKind
  | escapedPercent => none
  | specifier placeholder => ArgumentKind.ofConversion? placeholder.conversion

theorem kind?_word (lexeme : Lexeme) : lexeme.word.kind? = lexeme.kind? := by
  cases lexeme <;> rfl

end Lexeme

/-! ## What a reader takes -/

theorem exists_position (cs : List Char) :
    ∃ position, writtenPosition position ++ afterPosition cs = cs := by
  unfold afterPosition
  split
  · next d digits rest htake hdrop =>
    have hdigits : ∀ c ∈ d :: digits, isDecimalDigit c = true := fun c hc ↦
      List.mem_takeWhile_imp (htake ▸ hc)
    refine ⟨some ⟨d :: digits, List.cons_ne_nil _ _, hdigits⟩, ?_⟩
    calc
      d :: digits ++ ['$'] ++ rest = d :: digits ++ '$' :: rest := by simp
      _ = cs := by rw [← htake, ← hdrop, List.takeWhile_append_dropWhile]
  · exact ⟨none, rfl⟩

theorem exists_afterUpTo (n : Nat) (isIn : Char → Bool) (cs : List Char) :
    ∃ front, front.length ≤ n ∧ (∀ c ∈ front, isIn c = true) ∧
      front ++ afterUpTo n isIn cs = cs := by
  induction cs generalizing n with
  | nil => exact ⟨[], Nat.zero_le n, by simp, by simp [afterUpTo]⟩
  | cons c rest ih =>
    cases n with
    | zero => exact ⟨[], Nat.le_refl 0, by simp, by simp [afterUpTo]⟩
    | succ n =>
      by_cases hc : isIn c = true
      · obtain ⟨front, hlength, hfront, hrest⟩ := ih n
        refine ⟨c :: front, Nat.succ_le_succ hlength, List.forall_mem_cons.2 ⟨hc, hfront⟩, ?_⟩
        simp only [afterUpTo, hc, if_true, List.cons_append, hrest]
      · exact ⟨[], Nat.zero_le _, by simp, by simp [afterUpTo, hc]⟩

/-- A part of at most one character. -/
theorem exists_afterUpTo_one (isIn : Char → Bool) (cs : List Char) :
    ∃ part : Option Char, (∀ c ∈ part, isIn c = true) ∧
      part.toList ++ afterUpTo 1 isIn cs = cs := by
  obtain ⟨front, hlength, hfront, hrest⟩ := exists_afterUpTo 1 isIn cs
  match front, hlength with
  | [], _ => exact ⟨none, by simp, hrest⟩
  | [c], _ => exact ⟨some c, by simpa using hfront, hrest⟩

theorem exists_padding (cs : List Char) :
    ∃ padding, writtenPadding padding ++ afterPadding cs = cs := by
  fun_cases afterPadding cs with
  | case1 rest => exact ⟨some .blank, rfl⟩
  | case2 rest => exact ⟨some .zero, rfl⟩
  | case3 c rest hc => exact ⟨none, rfl⟩
  | case4 c rest hc => exact ⟨some (.character c (by simpa using hc)), rfl⟩
  | case5 => exact ⟨none, rfl⟩

theorem exists_precision (cs : List Char) :
    ∃ precision, writtenPrecision precision ++ afterPrecision cs = cs := by
  unfold afterPrecision
  split
  · next c rest =>
    split
    · next hc =>
      have hdigits : ∀ d ∈ c :: rest.takeWhile isDecimalDigit, isDecimalDigit d = true :=
        List.forall_mem_cons.2 ⟨hc, fun d hd ↦ List.mem_takeWhile_imp hd⟩
      refine ⟨some ⟨_, List.cons_ne_nil _ _, hdigits⟩, ?_⟩
      simp [writtenPrecision]
    · exact ⟨none, rfl⟩
  · exact ⟨none, rfl⟩

/-- What is taken before a conversion makes a specifier together with it. -/
theorem exists_specifier {cs rest : List Char} {conversion : Char}
    (h : afterModifiers cs = conversion :: rest) (hmem : conversion ∈ conversions) :
    ∃ placeholder : Specifier,
      placeholder.conversion = conversion ∧ placeholder.body ++ rest = cs := by
  -- What the reader has in front of it behind each part. Every part takes as much as it can, so the
  -- parts are chosen by the reader and not by the grammar.
  let positioned := afterPosition cs
  let signed := afterUpTo 1 (fun c ↦ c == '+' || c == '-') positioned
  let sized := afterUpTo 2 (fun c ↦ c == 'l' || c == 'h') signed
  let lengthened := afterUpTo 1 "qLztj".toList.contains sized
  let padded := afterPadding lengthened
  obtain ⟨position, hposition⟩ := exists_position cs
  obtain ⟨sign, hsign, hsigned⟩ := exists_afterUpTo_one (fun c ↦ c == '+' || c == '-') positioned
  obtain ⟨lengths, hle, hlengths, hsized⟩ :=
    exists_afterUpTo 2 (fun c ↦ c == 'l' || c == 'h') signed
  obtain ⟨modifier, hmodifier, hlengthened⟩ := exists_afterUpTo_one "qLztj".toList.contains sized
  obtain ⟨padding, hpadding⟩ := exists_padding lengthened
  obtain ⟨precision, hprecision⟩ := exists_precision (padded.dropWhile isDecimalDigit)
  let placeholder : Specifier :=
    { position, sign, lengths, modifier, padding, precision, conversion
      width := padded.takeWhile isDecimalDigit
      sign_mem := fun c hc ↦ by simpa using hsign c hc
      lengths_le := hle
      lengths_mem := fun c hc ↦ by simpa using hlengths c hc
      modifier_mem := fun c hc ↦ by simpa using hmodifier c hc
      width_isDigit := fun c hc ↦ List.mem_takeWhile_imp hc
      conversion_mem := hmem }
  have hread : afterPrecision (padded.dropWhile isDecimalDigit) = conversion :: rest := h
  have hending : placeholder.ending ++ rest = padded := by
    calc
      placeholder.ending ++ rest = padded.takeWhile isDecimalDigit ++
          (writtenPrecision precision ++ conversion :: rest) := by
        simp [Specifier.ending, placeholder]
      _ = padded := by rw [← hread, hprecision, List.takeWhile_append_dropWhile]
  refine ⟨placeholder, rfl, ?_⟩
  calc
    placeholder.body ++ rest = writtenPosition position ++ (sign.toList ++ (lengths ++
        (modifier.toList ++ (writtenPadding padding ++ (placeholder.ending ++ rest))))) := by
      simp [Specifier.body, Specifier.behindPosition, Specifier.behindSign,
        Specifier.behindLengths, Specifier.behindModifier, placeholder]
    _ = cs := by rw [hending, hpadding, hlengthened, hsized, hsigned, hposition]

/-! ## Words and reading -/

/-- Every word that is read stands in the text. -/
theorem exists_lexeme {cs rest : List Char} {word : Word} (h : word? cs = some (word, rest)) :
    ∃ lexeme : Lexeme, lexeme.word = word ∧ lexeme.written ++ rest = '%' :: cs := by
  unfold word? at h
  split at h
  · obtain ⟨rfl, rfl⟩ := Prod.mk.inj (Option.some.inj h)
    exact ⟨.escapedPercent, rfl, rfl⟩
  · split at h
    · next conversion behind hbehind =>
      split at h
      · next hmem =>
        obtain ⟨rfl, rfl⟩ := Prod.mk.inj (Option.some.inj h)
        obtain ⟨placeholder, hconversion, hbody⟩ := exists_specifier hbehind (by simpa using hmem)
        refine ⟨.specifier placeholder, congrArg Word.specifier hconversion, ?_⟩
        exact congrArg ('%' :: ·) hbody
      · simp at h
    · simp at h

/-- Every word that stands in the text is read, whatever follows it. -/
theorem exists_word? (lexeme : Lexeme) (rest : List Char) :
    ∃ cs, lexeme.written ++ rest = '%' :: cs ∧ word? cs = some (lexeme.word, rest) := by
  cases lexeme with
  | escapedPercent => exact ⟨'%' :: rest, rfl, rfl⟩
  | specifier placeholder => exact ⟨placeholder.body ++ rest, rfl, placeholder.word?_body rest⟩

theorem words_lexeme (lexeme : Lexeme) (rest : List Char) :
    words (lexeme.written ++ rest) = lexeme.word :: words rest := by
  obtain ⟨cs, hcs, hword⟩ := exists_word? lexeme rest
  rw [hcs, words_of_word? hword]

theorem words_skip {c : Char} {rest : List Char}
    (h : ∀ lexeme : Lexeme, ¬lexeme.written <+: c :: rest) : words (c :: rest) = words rest := by
  by_cases hpercent : c = '%'
  · subst hpercent
    apply words_of_word?_eq_none
    rw [Option.eq_none_iff_forall_ne_some]
    rintro ⟨word, behind⟩ hword
    obtain ⟨lexeme, -, hwritten⟩ := exists_lexeme hword
    exact h lexeme ⟨behind, hwritten⟩
  · rw [words]
    exact hpercent

/-- Words at the same place leave the same rest. -/
theorem eq_of_written_append {first second : Lexeme} {rest behind : List Char}
    (h : first.written ++ rest = second.written ++ behind) : rest = behind := by
  obtain ⟨cs, hcs, hfirst⟩ := exists_word? first rest
  obtain ⟨others, hothers, hsecond⟩ := exists_word? second behind
  obtain ⟨-, rfl⟩ := List.cons.inj (hcs.symm.trans (h.trans hothers))
  exact (Prod.mk.inj (Option.some.inj (hfirst.symm.trans hsecond))).2

/-- No word begins with a shorter one. -/
theorem written_eq_of_isPrefix {first second : Lexeme} (h : first.written <+: second.written) :
    first.written = second.written := by
  obtain ⟨rest, hrest⟩ := h
  have hnil : rest = [] := eq_of_written_append (hrest.trans (List.append_nil _).symm)
  rw [← hrest, hnil, List.append_nil]

/-! ## Scanning -/

/-- The scan from left to right: where a word of the lexicon begins, it is taken as a whole and
tells its argument; elsewhere one character is left out. -/
inductive Scans : List Char → List ArgumentKind → Prop
  | nil : Scans [] []
  | word (lexeme : Lexeme) {rest : List Char} {kinds : List ArgumentKind}
      (tail : Scans rest kinds) :
      Scans (lexeme.written ++ rest) (lexeme.kind?.toList ++ kinds)
  | skip {c : Char} {rest : List Char} {kinds : List ArgumentKind}
      (noWord : ∀ lexeme : Lexeme, ¬lexeme.written <+: c :: rest) (tail : Scans rest kinds) :
      Scans (c :: rest) kinds

/-- The arguments that are read from characters. -/
def kindsOf (cs : List Char) : List ArgumentKind := (words cs).filterMap Word.kind?

theorem kindsOf_lexeme (lexeme : Lexeme) (rest : List Char) :
    kindsOf (lexeme.written ++ rest) = lexeme.kind?.toList ++ kindsOf rest := by
  rw [kindsOf, words_lexeme, ← lexeme.kind?_word]
  cases hkind : lexeme.word.kind? <;> simp [hkind, kindsOf]

theorem kindsOf_nil : kindsOf [] = [] := by simp [kindsOf, words]

/-- A scan can end in one way only. -/
theorem Scans.kindsOf_eq {cs : List Char} {kinds : List ArgumentKind} (h : Scans cs kinds) :
    kindsOf cs = kinds := by
  induction h with
  | nil => exact kindsOf_nil
  | word lexeme _ ih => rw [kindsOf_lexeme, ih]
  | skip noWord _ ih => rw [kindsOf, words_skip noWord, ← ih, kindsOf]

theorem not_isPrefix_of_ne_percent {c : Char} (h : c ≠ '%') (rest : List Char) (lexeme : Lexeme) :
    ¬lexeme.written <+: c :: rest := by
  rintro ⟨behind, hbehind⟩
  obtain ⟨cs, hcs, -⟩ := exists_word? lexeme behind
  exact h (List.cons.inj (hbehind.symm.trans hcs)).1

theorem not_isPrefix_of_word?_eq_none {cs : List Char} (h : word? cs = none) (lexeme : Lexeme) :
    ¬lexeme.written <+: '%' :: cs := by
  rintro ⟨behind, hbehind⟩
  obtain ⟨others, hothers, hword⟩ := exists_word? lexeme behind
  obtain ⟨-, rfl⟩ := List.cons.inj (hbehind.symm.trans hothers)
  simp [h] at hword

/-- Reading is a scan. -/
theorem scans_kindsOf (cs : List Char) : Scans cs (kindsOf cs) := by
  fun_induction words cs with
  | case1 => exact kindsOf_nil ▸ Scans.nil
  | case2 cs word rest hword ih =>
    obtain ⟨lexeme, -, hwritten⟩ := exists_lexeme hword
    rw [← hwritten, kindsOf_lexeme]
    exact .word lexeme ih
  | case3 cs hnone ih =>
    rw [kindsOf, words_of_word?_eq_none hnone]
    exact .skip (not_isPrefix_of_word?_eq_none hnone) ih
  | case4 c cs hc ih =>
    rw [kindsOf, words]
    · exact .skip (not_isPrefix_of_ne_percent hc cs) ih
    · exact hc

/-- No conversion of a specifier stands for a single character. -/
theorem Lexeme.kind?_ne_character (lexeme : Lexeme) : lexeme.kind? ≠ some .character := by
  cases lexeme with
  | escapedPercent => simp [kind?]
  | specifier placeholder =>
    have hall : ∀ c ∈ conversions, ArgumentKind.ofConversion? c ≠ some .character :=
      List.all_iff_forall_prop.1 (by decide)
    exact hall _ placeholder.conversion_mem

theorem Scans.character_notMem {cs : List Char} {kinds : List ArgumentKind} (h : Scans cs kinds) :
    ArgumentKind.character ∉ kinds := by
  induction h with
  | nil => exact List.not_mem_nil
  | word lexeme _ ih =>
    rw [List.mem_append, Option.mem_toList]
    exact not_or.2 ⟨lexeme.kind?_ne_character, ih⟩
  | skip _ _ ih => exact ih

/-! ## Texts made of words -/

/-- A part of a format string: a word, or text that has no percent sign. -/
inductive Segment where
  | word (lexeme : Lexeme)
  | text (chars : List Char) (plain : '%' ∉ chars)

namespace Segment

def written : Segment → List Char
  | word lexeme => lexeme.written
  | text chars _ => chars

def kind? : Segment → Option ArgumentKind
  | word lexeme => lexeme.kind?
  | text _ _ => none

end Segment

theorem kindsOf_segments (segments : List Segment) :
    kindsOf (segments.flatMap Segment.written) = segments.filterMap Segment.kind? := by
  induction segments with
  | nil => exact kindsOf_nil
  | cons segment rest ih =>
    rw [List.flatMap_cons]
    cases segment with
    | word lexeme =>
      rw [Segment.written, kindsOf_lexeme, ih]
      cases hkind : lexeme.kind? <;> simp [Segment.kind?, hkind]
    | text chars plain =>
      rw [Segment.written, kindsOf, words_append_of_notMem plain, ← kindsOf, ih]
      rfl

/-- The arguments of a format string are those that the scan for words tells, and no word begins
with another. So words and texts without percent signs contribute each on their own, whatever
positions they carry, and no argument is ever a single character. -/
theorem scans_iff_classify :
    (∀ first second : Lexeme,
      first.written <+: second.written ↔ first.written = second.written) ∧
    (∀ (format : String) (kinds : List ArgumentKind),
      Scans format.toList kinds ↔ classify format = kinds) ∧
    (∀ segments : List Segment,
      classify (String.ofList (segments.flatMap Segment.written)) =
        segments.filterMap Segment.kind?) ∧
    ∀ format : String, ArgumentKind.character ∉ classify format := by
  refine ⟨fun first second ↦ ⟨written_eq_of_isPrefix, fun heq ↦ heq ▸ List.prefix_rfl⟩,
    fun format kinds ↦ ⟨Scans.kindsOf_eq, ?_⟩, fun segments ↦ ?_, fun format ↦ ?_⟩
  · rintro rfl
    exact scans_kindsOf format.toList
  · rw [classify, String.toList_ofList]
    exact kindsOf_segments segments
  · exact (scans_kindsOf format.toList).character_notMem

end LocalizedAccessors.Placeholder
