import LocalizedAccessors.Proofs.Placeholder.Specifier
import LocalizedAccessors.PropertyList.PluralRule
import Mathlib.Data.List.Basic

/-!
# Arguments of flattened rules

A format string as pieces, and the arguments that a rule takes when its references are substituted.
The substitution looks for references without regard to placeholders: it can find one behind an
escaped percent sign, where it is plain text. Neither what is put there nor what is kept from an
untyped reference begins an argument, so pieces contribute each on their own.
-/

namespace LocalizedAccessors.PluralRule

open Placeholder Text

/-- A piece of a format string. -/
inductive Piece where
  | text (chars : List Char) (plain : '%' ∉ chars)
  | escapedPercent
  | specifier (placeholder : Specifier)
  | reference (position : Option Digits) (name : List Char) (ne_nil : name ≠ [])
      (unmarked : ∀ c ∈ name, isMark c = false)

def Piece.written : Piece → List Char
  | .text chars _ => chars
  | .escapedPercent => ['%', '%']
  | .specifier placeholder => placeholder.written
  | .reference position name _ _ => (Reference.mk (writtenPosition position) name).written

/-- A variable of a rule that has a string for its type. -/
def Declares (rule : PropertyList) (name type : String) : Prop :=
  ∃ entry, rule.get? name = some entry ∧ entry.get? valueTypeKey = some (.string type)

/-- Whether every type that a rule declares is a specifier without its percent sign and without a
position, and has no percent sign anywhere else. -/
def Typed (rule : PropertyList) : Prop :=
  ∀ name type, Declares rule name type →
    '%' ∉ type.toList ∧ ∃ specifier : Specifier, specifier.position = none ∧
      specifier.body = type.toList

/-- The argument that a piece stands for. The conversion of a type is its last character. -/
def Piece.kind? (rule : PropertyList) : Piece → Option ArgumentKind
  | .text _ _ => none
  | .escapedPercent => none
  | .specifier placeholder => ArgumentKind.ofConversion? placeholder.conversion
  | .reference _ name _ _ => do
    let type ← valueType? rule (String.ofList name)
    ArgumentKind.ofConversion? (← type.toList.getLast?)

theorem valueType?_eq_some_iff {rule : PropertyList} {name type : String} :
    valueType? rule name = some type ↔ Declares rule name type := by
  simp only [valueType?, Declares, Option.bind_eq_bind, Option.bind_eq_some_iff]
  constructor
  · rintro ⟨entry, hentry, value, hvalue, htype⟩
    cases value with
    | string text =>
      obtain rfl : text = type := by simpa [PropertyList.asString?] using htype
      exact ⟨entry, hentry, hvalue⟩
    | dict | array | other => simp [PropertyList.asString?] at htype
  · rintro ⟨entry, hentry, htype⟩
    exact ⟨entry, hentry, .string type, htype, rfl⟩

/-! ## Finding references -/

theorem splitPosition_snd (cs : List Char) : (splitPosition cs).2 = afterPosition cs := by
  unfold splitPosition
  split
  · next hdigits hrest =>
    unfold afterPosition
    simp only [hdigits, hrest]
  · next h =>
    unfold afterPosition
    split
    · next d digits rest hdigits hrest => exact absurd hrest (h d digits rest hdigits)
    · rfl

theorem splitPosition_append (cs : List Char) :
    (splitPosition cs).1 ++ (splitPosition cs).2 = cs := by
  have hparts := List.takeWhile_append_dropWhile (p := isDecimalDigit) (l := cs)
  unfold splitPosition
  split
  · next hdigits hrest =>
    rw [hdigits, hrest] at hparts
    simpa using hparts
  · rfl

theorem splitPosition_written (position : Option Digits) {cs : List Char} (h : Unpositioned cs) :
    splitPosition (writtenPosition position ++ cs) = (writtenPosition position, cs) := by
  have hrest := (splitPosition_snd _).trans (afterPosition_append position h)
  have hparts := splitPosition_append (writtenPosition position ++ cs)
  rw [hrest] at hparts
  exact Prod.ext (List.append_cancel_right hparts) hrest

theorem of_mem_splitPosition {cs : List Char} {c : Char} (h : c ∈ (splitPosition cs).1) :
    isDecimalDigit c = true ∨ c = '$' := by
  unfold splitPosition at h
  split at h
  · next d digits rest hdigits _ =>
    rcases List.mem_append.1 h with hdigit | hdollar
    · exact .inl (List.mem_takeWhile_imp (hdigits ▸ hdigit))
    · exact .inr (List.mem_singleton.1 hdollar)
  · simp at h

theorem percent_notMem_splitPosition (cs : List Char) : '%' ∉ (splitPosition cs).1 := by
  intro hmem
  rcases of_mem_splitPosition hmem with hdigit | hdollar
  · exact absurd hdigit (by decide)
  · exact absurd hdollar (by decide)

theorem reference?_eq_none {cs : List Char} (h : ∀ c ∈ (afterPosition cs).head?, c ≠ '#') :
    reference? cs = none := by
  rw [reference?, splitPosition_snd]
  split
  · next heq => exact absurd rfl (h '#' (by simp [heq]))
  · rfl

theorem reference?_written (position : Option Digits) {name : List Char} (hne : name ≠ [])
    (hname : ∀ c ∈ name, isMark c = false) (rest : List Char) :
    reference? (writtenPosition position ++ '#' :: '@' :: (name ++ '@' :: rest)) =
      some (⟨writtenPosition position, name⟩, rest) := by
  have hplain : ∀ c ∈ name, (!isMark c) = true := fun c hc ↦ by simp [hname c hc]
  obtain ⟨c, others, rfl⟩ := List.exists_cons_of_ne_nil hne
  rw [reference?, splitPosition_written position (Unpositioned.of_head (by decide) (by decide))]
  simp only [List.takeWhile_append_of_pos hplain, List.dropWhile_append_of_pos hplain]
  simp [isMark]

/-- What is read as a reference is written like one. -/
theorem eq_append_of_reference? {cs rest : List Char} {reference : Reference}
    (h : reference? cs = some (reference, rest)) :
    '%' :: cs = reference.written ++ rest ∧ '%' ∉ reference.position ∧ '%' ∉ reference.name := by
  have hparts := splitPosition_append cs
  rw [reference?] at h
  split at h
  · next named hnamed =>
    have hname := List.takeWhile_append_dropWhile (p := (!isMark ·)) (l := named)
    split at h
    · next c name after htake hdrop =>
      simp only [Option.some.injEq, Prod.mk.injEq] at h
      obtain ⟨rfl, rfl⟩ := h
      rw [htake, hdrop] at hname
      rw [hnamed, ← hname] at hparts
      refine ⟨?_, percent_notMem_splitPosition cs, fun hmem ↦ ?_⟩
      · simpa [Reference.written] using hparts.symm
      · rw [← htake] at hmem
        exact absurd (List.mem_takeWhile_imp hmem) (by decide)
    · simp at h
  · simp at h

/-! ## Text that is kept -/

/-- Whether no reference begins within some characters, whatever follows them. -/
def Kept (front : List Char) : Prop :=
  ∀ rule rest, flattenFormat rule (front ++ rest) = front ++ flattenFormat rule rest

theorem Kept.append {front rest : List Char} (hfront : Kept front) (hrest : Kept rest) :
    Kept (front ++ rest) := fun rule after ↦ by
  rw [List.append_assoc, hfront, hrest, List.append_assoc]

theorem kept_of_notMem {cs : List Char} (h : '%' ∉ cs) : Kept cs := by
  intro rule rest
  induction cs with
  | nil => rfl
  | cons c cs ih =>
    obtain ⟨hc, hcs⟩ := not_or.1 (mt List.mem_cons.2 h)
    rw [List.cons_append, flattenFormat, ih hcs, List.cons_append]
    exact fun heq ↦ hc heq.symm

theorem flattenFormat_percent {rule : PropertyList} {cs : List Char} (h : reference? cs = none) :
    flattenFormat rule ('%' :: cs) = '%' :: flattenFormat rule cs := by
  rw [flattenFormat]
  split
  · next heq => simp [h] at heq
  · rfl

theorem flattenFormat_reference {rule : PropertyList} {cs rest : List Char} {reference : Reference}
    (h : reference? cs = some (reference, rest)) :
    flattenFormat rule ('%' :: cs) = substituted rule reference ++ flattenFormat rule rest := by
  rw [flattenFormat]
  split
  · next heq =>
    rw [h] at heq
    obtain ⟨rfl, rfl⟩ := Prod.mk.inj (Option.some.inj heq)
    rfl
  · next heq => simp [h] at heq

theorem Kept.percent {cs : List Char} (h : Kept cs) (hnone : ∀ rest, reference? (cs ++ rest) = none) :
    Kept ('%' :: cs) := fun rule rest ↦ by
  rw [List.cons_append, flattenFormat_percent (hnone rest), h, List.cons_append]

theorem percent_notMem_of_digits {digits : List Char}
    (h : ∀ c ∈ digits, isDecimalDigit c = true) : '%' ∉ digits := fun hmem ↦
  absurd (h '%' hmem) (by decide)

theorem percent_notMem_position (position : Option Digits) : '%' ∉ writtenPosition position := by
  cases position with
  | none => simp [writtenPosition]
  | some digits => simp [writtenPosition, percent_notMem_of_digits digits.isDigit]

theorem percent_notMem_precision (precision : Option Digits) :
    '%' ∉ writtenPrecision precision := by
  cases precision with
  | none => simp [writtenPrecision]
  | some digits => simp [writtenPrecision, percent_notMem_of_digits digits.isDigit]

section Specifiers

variable (specifier : Specifier)

theorem kept_ending : Kept specifier.ending := by
  have hconversion : '%' ≠ specifier.conversion := by
    intro heq
    exact absurd (heq ▸ specifier.conversion_mem) (by decide)
  refine kept_of_notMem ?_
  simp [Specifier.ending, percent_notMem_of_digits specifier.width_isDigit,
    percent_notMem_precision, hconversion]

theorem reference?_ending (rest : List Char) : reference? (specifier.ending ++ rest) = none := by
  refine reference?_eq_none ?_
  rw [afterPosition_of_unpositioned (specifier.unpositioned_ending rest)]
  simpa using (specifier.opens_ending rest).notMem ['#'] (by decide)

/-- A percent sign that a specifier is padded with begins no reference. -/
theorem kept_behindModifier : Kept specifier.behindModifier := by
  have hending := kept_ending specifier
  rw [Specifier.behindModifier]
  rcases specifier.padding with - | - | - | ⟨c, -⟩
  · exact hending
  · exact (kept_of_notMem (by decide)).append hending
  · exact (kept_of_notMem (by decide)).append hending
  · by_cases hc : '%' = c
    · subst hc
      exact (@kept_of_notMem ['\''] (by decide)).append
        (hending.percent (reference?_ending specifier))
    · exact (kept_of_notMem (by simp [writtenPadding, hc])).append hending

theorem kept_body : Kept specifier.body := by
  refine (kept_of_notMem (percent_notMem_position _)).append ?_
  refine Kept.append (kept_of_notMem fun h ↦ ?_) (Kept.append (kept_of_notMem fun h ↦ ?_)
    (Kept.append (kept_of_notMem fun h ↦ ?_) (kept_behindModifier specifier)))
  · exact absurd (specifier.sign_mem _ (Option.mem_toList.1 h)) (by decide)
  · exact absurd (specifier.lengths_mem _ h) (by decide)
  · exact absurd (specifier.modifier_mem _ (Option.mem_toList.1 h)) (by decide)

theorem kept_written : Kept specifier.written := by
  refine (kept_body specifier).percent fun rest ↦ reference?_eq_none ?_
  rw [specifier.afterPosition_body]
  simpa using (specifier.opens_behindPosition rest).notMem ['#'] (by decide)

end Specifiers

/-! ## Pieces one by one -/

theorem word?_reference (position : Option Digits) (rest : List Char) :
    word? (writtenPosition position ++ '#' :: rest) = none := by
  have hafter : afterModifiers (writtenPosition position ++ '#' :: rest) = '#' :: rest := by
    rw [afterModifiers,
      afterPosition_append position (Unpositioned.of_head (by decide) (by decide))]
    simp [afterUpTo, afterPadding, afterPrecision, show isDecimalDigit '#' = false by decide]
  have hopens : Opens ['#'] (writtenPosition position ++ '#' :: rest) :=
    Opens.position position (Opens.of_mem (List.mem_singleton_self _))
  have hpercent := hopens.notMem ['%'] (by decide)
  have hconversion : conversions.contains '#' = false := by decide
  unfold word?
  split
  · next heq => exact absurd (hpercent '%' (by simp [heq])) (by simp)
  · simp only [hafter, hconversion, Bool.false_eq_true, if_false]

/-- The word that a piece becomes. -/
def Piece.words (rule : PropertyList) : Piece → List Word
  | .text _ _ => []
  | .escapedPercent => [.escapedPercent]
  | .specifier placeholder => [.specifier placeholder.conversion]
  | .reference _ name _ _ =>
    match valueType? rule (String.ofList name) with
    | some type => type.toList.getLast?.toList.map .specifier
    | none => []

theorem substituted_of_declares {rule : PropertyList} {reference : Reference} {type : String}
    (h : valueType? rule (String.ofList reference.name) = some type) :
    substituted rule reference = '%' :: (reference.position ++ type.toList) := by
  simp [substituted, h]

/-- What is put in the place of a reference has no percent sign but its first character. -/
theorem exists_substituted {rule : PropertyList} (htyped : Typed rule) {reference : Reference}
    (hposition : '%' ∉ reference.position) (hname : '%' ∉ reference.name) :
    ∃ plain, substituted rule reference = '%' :: plain ∧ '%' ∉ plain := by
  cases htype : valueType? rule (String.ofList reference.name) with
  | some type =>
    obtain ⟨hplain, -⟩ := htyped _ _ (valueType?_eq_some_iff.1 htype)
    exact ⟨_, substituted_of_declares htype, by simp [hposition, hplain]⟩
  | none =>
    refine ⟨reference.position ++ ['#', '@'] ++ reference.name ++ ['@'], ?_, ?_⟩
    · simp [substituted, htype, Reference.written]
    · simp [hposition, hname]

section Pieces

variable {rule : PropertyList} (rest : List Char)

/-- What stands behind an escaped percent sign has the words that it had before, though a reference
may be found there. -/
theorem words_escapedPercent (htyped : Typed rule) :
    words (flattenFormat rule ('%' :: '%' :: rest)) =
      .escapedPercent :: words (flattenFormat rule rest) := by
  have hescape : ∀ cs, words ('%' :: '%' :: cs) = .escapedPercent :: words cs := fun cs ↦
    words_of_word? (by simp [word?])
  have hnone : reference? ('%' :: rest) = none :=
    reference?_eq_none (by simp [afterPosition, show isDecimalDigit '%' = false by decide])
  rw [flattenFormat_percent hnone]
  cases hfound : reference? rest with
  | none => rw [flattenFormat_percent hfound, hescape]
  | some found =>
    obtain ⟨reference, after⟩ := found
    obtain ⟨hwritten, hposition, hname⟩ := eq_append_of_reference? hfound
    obtain ⟨plain, hplain, hpercent⟩ := exists_substituted htyped hposition hname
    have hrest : rest = (reference.position ++ ['#', '@'] ++ reference.name ++ ['@']) ++ after := by
      simpa [Reference.written] using hwritten
    have hkept : '%' ∉ reference.position ++ ['#', '@'] ++ reference.name ++ ['@'] := by
      simp [hposition, hname]
    rw [flattenFormat_reference hfound, hplain, List.cons_append, hescape,
      words_append_of_notMem hpercent]
    rw [hrest, kept_of_notMem hkept, words_append_of_notMem hkept]

theorem words_reference (htyped : Typed rule) (position : Option Digits) {name : List Char}
    (hne : name ≠ []) (hname : ∀ c ∈ name, isMark c = false) :
    words (flattenFormat rule ((Reference.mk (writtenPosition position) name).written ++ rest)) =
      (Piece.reference position name hne hname).words rule ++ words (flattenFormat rule rest) := by
  have hfound := reference?_written position hne hname rest
  have hwritten : (Reference.mk (writtenPosition position) name).written ++ rest =
      '%' :: (writtenPosition position ++ '#' :: '@' :: (name ++ '@' :: rest)) := by
    simp [Reference.written]
  rw [hwritten, flattenFormat_reference hfound, Piece.words]
  cases htype : valueType? rule (String.ofList name) with
  | some type =>
    obtain ⟨-, specifier, hposition, hbody⟩ := htyped _ _ (valueType?_eq_some_iff.1 htype)
    -- the position of the reference becomes that of the type, which has none
    have hsubstituted : substituted rule ⟨writtenPosition position, name⟩ =
        (specifier.placed position).written := by
      rw [substituted_of_declares htype, Specifier.written_placed hposition, hbody]
    have hlast : type.toList.getLast? = some specifier.conversion :=
      hbody ▸ specifier.getLast?_body
    rw [hsubstituted, words_specifier]
    simp only [hlast]
    rfl
  | none =>
    have hname' : '%' ∉ name := fun hmem ↦ absurd (hname '%' hmem) (by decide)
    have hplain : '%' ∉ writtenPosition position ++ '#' :: '@' :: (name ++ ['@']) := by
      simp [percent_notMem_position, hname']
    have hsubstituted : substituted rule ⟨writtenPosition position, name⟩ =
        '%' :: (writtenPosition position ++ '#' :: '@' :: (name ++ ['@'])) := by
      simp [substituted, htype, Reference.written]
    rw [hsubstituted, List.cons_append, words_of_word?_eq_none, words_append_of_notMem hplain]
    · rfl
    · rw [List.append_assoc]
      exact word?_reference position _

theorem words_piece (htyped : Typed rule) (piece : Piece) :
    words (flattenFormat rule (piece.written ++ rest)) =
      piece.words rule ++ words (flattenFormat rule rest) := by
  cases piece with
  | text chars plain =>
    rw [Piece.written, kept_of_notMem plain, words_append_of_notMem plain]
    rfl
  | escapedPercent => exact words_escapedPercent rest htyped
  | specifier placeholder =>
    rw [Piece.written, kept_written placeholder, words_specifier]
    rfl
  | reference position name hne hname => exact words_reference rest htyped position hne hname

end Pieces

theorem filterMap_kind?_words (rule : PropertyList) (piece : Piece) :
    (piece.words rule).filterMap Word.kind? = (piece.kind? rule).toList := by
  have hspecifier : ∀ conversion, [Word.specifier conversion].filterMap Word.kind? =
      (ArgumentKind.ofConversion? conversion).toList := fun conversion ↦ by
    rw [List.filterMap_eq_flatMap_toList, List.flatMap_singleton]
    rfl
  cases piece with
  | text | escapedPercent => rfl
  | specifier placeholder => exact hspecifier placeholder.conversion
  | reference _ name =>
    rw [Piece.words, Piece.kind?]
    cases valueType? rule (String.ofList name) with
    | none => rfl
    | some type =>
      cases hlast : type.toList.getLast? with
      | none => simp [hlast]
      | some conversion => simpa [hlast] using hspecifier conversion

/-- A format string has the words of its pieces. -/
theorem words_flattenFormat {rule : PropertyList} (htyped : Typed rule) (pieces : List Piece) :
    words (flattenFormat rule (pieces.flatMap Piece.written)) =
      pieces.flatMap (Piece.words rule) := by
  induction pieces with
  | nil => rw [List.flatMap_nil, flattenFormat, words, List.flatMap_nil]
  | cons piece pieces ih => rw [List.flatMap_cons, words_piece _ htyped, ih, List.flatMap_cons]

/-- A flattened rule takes one argument for every specifier and for every typed reference of its
format, in textual order. -/
theorem classify_flatten {rule : PropertyList} {pieces : List Piece}
    (hformat : rule.get? formatKey =
      some (.string (String.ofList (pieces.flatMap Piece.written)))) (htyped : Typed rule) :
    (flatten? rule).map classify = some (pieces.filterMap (Piece.kind? rule)) := by
  have hflat : flatten? rule =
      some (String.ofList (flattenFormat rule (pieces.flatMap Piece.written))) := by
    simp [flatten?, hformat, PropertyList.asString?]
  rw [hflat, Option.map_some, classify, String.toList_ofList]
  congr 1
  calc
    (words (flattenFormat rule (pieces.flatMap Piece.written))).filterMap Word.kind?
    _ = (pieces.flatMap (Piece.words rule)).filterMap Word.kind? := by
      rw [words_flattenFormat htyped]
    _ = pieces.flatMap fun piece ↦ (piece.kind? rule).toList := by
      simp only [List.filterMap_flatMap, filterMap_kind?_words]
    _ = pieces.filterMap (Piece.kind? rule) := (List.filterMap_eq_flatMap_toList ..).symm

/-- A type of the shape that counts are declared with, `ld`. -/
def longCount : Specifier where
  position := none
  sign := none
  lengths := ['l']
  modifier := none
  padding := none
  width := []
  precision := none
  conversion := 'd'
  sign_mem := by simp
  lengths_le := by decide
  lengths_mem := by simp
  modifier_mem := by simp
  width_isDigit := by simp
  conversion_mem := by decide

/-- A specifier with most of its parts, `%05.1f`. -/
def fraction : Specifier where
  position := none
  sign := none
  lengths := []
  modifier := none
  padding := some .zero
  width := ['5']
  precision := some ⟨['1'], by decide, List.forall_mem_singleton.2 (by decide)⟩
  conversion := 'f'
  sign_mem := by simp
  lengths_le := by decide
  lengths_mem := by simp
  modifier_mem := by simp
  width_isDigit := List.forall_mem_singleton.2 (by decide)
  conversion_mem := by decide

/-- The pieces of `%1$#@files@ of %%#@files@ at %05.1f, %#@lost@`, where the second `files` is text
behind a percent sign. -/
def progressPieces : List Piece :=
  [.reference (some ⟨['1'], by decide, List.forall_mem_singleton.2 (by decide)⟩) "files".toList
      (by decide) (List.all_iff_forall_prop.1 (by decide)),
    .text " of ".toList (by decide), .escapedPercent, .text "#@files@ at ".toList (by decide),
    .specifier fraction, .text ", ".toList (by decide),
    .reference none "lost".toList (by decide) (List.all_iff_forall_prop.1 (by decide))]

def progressRule : PropertyList :=
  .dict [(formatKey, .string "%1$#@files@ of %%#@files@ at %05.1f, %#@lost@"),
    ("files", .dict [(valueTypeKey, .string "ld")]), ("lost", .dict [])]

theorem typed_progressRule : Typed progressRule := by
  have hcount : longCount.position = none ∧ longCount.body = "ld".toList := by decide
  have htyped : (PropertyList.dict [(valueTypeKey, .string "ld")]).get? valueTypeKey =
      some (.string "ld") := rfl
  rintro name type ⟨entry, hentry, htype⟩
  obtain ⟨front, back, hpairs, -⟩ := List.lookup_eq_some_iff.1 hentry
  have hmem : (name, entry) ∈ front ++ (name, entry) :: back := by simp
  rw [← hpairs] at hmem
  simp only [List.mem_cons, Prod.mk.injEq, List.not_mem_nil, or_false] at hmem
  rcases hmem with ⟨-, rfl⟩ | ⟨-, rfl⟩ | ⟨-, rfl⟩
  · cases htype
  · rw [htyped] at htype
    cases htype
    exact ⟨by decide, longCount, hcount⟩
  · cases htype

theorem classify_flatten_progressRule :
    progressRule.get? formatKey =
        some (.string (String.ofList (progressPieces.flatMap Piece.written))) ∧
      Typed progressRule ∧
      (flatten? progressRule).map classify = some [.signedInteger, .fixedFloat] := by
  have hformat : progressRule.get? formatKey =
      some (.string (String.ofList (progressPieces.flatMap Piece.written))) := by
    rfl
  refine ⟨hformat, typed_progressRule, ?_⟩
  rw [classify_flatten hformat typed_progressRule]
  rfl

end LocalizedAccessors.PluralRule
