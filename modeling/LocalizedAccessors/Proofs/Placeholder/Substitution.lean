import LocalizedAccessors.Proofs.Placeholder.Flattening
import LocalizedAccessors.Proofs.Placeholder.Lexicon

/-!
# Substitution of references

Flattening goes through a format string once, from left to right. Where a reference begins, it is
taken as a whole, whatever stands around it; every other character stays. What is put in the place
of references makes no new ones, neither with what follows nor with what stands before: a reference
has no percent sign but its first character, and up to the next percent sign the flattened text is
the text that it was. So flattening again changes nothing.
-/

namespace LocalizedAccessors.PluralRule

open Placeholder Text

/-- A reference to a variable, by position or not. No percent sign, number sign or at sign can stand
in the name. -/
structure VariableReference where
  position : Option Digits
  name : List Char
  ne_nil : name ≠ []
  unmarked : ∀ c ∈ name, c ≠ '%' ∧ c ≠ '#' ∧ c ≠ '@'

namespace VariableReference

def toReference (reference : VariableReference) : Reference :=
  ⟨writtenPosition reference.position, reference.name⟩

/-- What follows the percent sign of a reference. -/
def body (reference : VariableReference) : List Char :=
  writtenPosition reference.position ++ ['#', '@'] ++ reference.name ++ ['@']

def written (reference : VariableReference) : List Char := '%' :: reference.body

theorem written_toReference (reference : VariableReference) :
    reference.toReference.written = reference.written := by
  simp [toReference, Reference.written, written, body]

theorem percent_notMem_body (reference : VariableReference) : '%' ∉ reference.body := by
  have hname : '%' ∉ reference.name := fun hmem ↦ (reference.unmarked '%' hmem).1 rfl
  simp [body, percent_notMem_position, hname]

/-- A reference is read whatever follows it. -/
theorem reference?_body (reference : VariableReference) (rest : List Char) :
    reference? (reference.body ++ rest) = some (reference.toReference, rest) := by
  have hname : ∀ c ∈ reference.name, isMark c = false := by
    simpa [isMark, and_assoc] using reference.unmarked
  simpa [body, toReference] using reference?_written reference.position reference.ne_nil hname rest

end VariableReference

/-- What is read is a reference. -/
theorem exists_variableReference {cs rest : List Char} {reference : Reference}
    (h : reference? cs = some (reference, rest)) :
    ∃ grammatical : VariableReference,
      grammatical.toReference = reference ∧ grammatical.body ++ rest = cs := by
  obtain ⟨position, hposition⟩ := exists_position cs
  have hparts := splitPosition_append cs
  rw [splitPosition_snd] at hparts
  have hfirst := List.append_cancel_right (hparts.trans hposition.symm)
  rw [reference?, splitPosition_snd, hfirst] at h
  split at h
  · next named hnamed =>
    have hname := List.takeWhile_append_dropWhile (p := (!isMark ·)) (l := named)
    split at h
    · next c name after htake hdrop =>
      simp only [Option.some.injEq, Prod.mk.injEq] at h
      obtain ⟨rfl, rfl⟩ := h
      have hunmarked : ∀ d ∈ c :: name, d ≠ '%' ∧ d ≠ '#' ∧ d ≠ '@' := fun d hd ↦ by
        have hmark := List.mem_takeWhile_imp (p := (!isMark ·)) (htake ▸ hd)
        simpa [isMark, and_assoc] using hmark
      refine ⟨⟨position, c :: name, List.cons_ne_nil _ _, hunmarked⟩, rfl, ?_⟩
      rw [htake, hdrop] at hname
      rw [← hposition, hnamed, ← hname]
      simp [VariableReference.body]
    · simp at h
  · simp at h

/-! ## Substitution as a relation -/

/-- A text and what comes of it when the references in it are substituted from left to right. -/
inductive Flattens (rule : PropertyList) : List Char → List Char → Prop
  | nil : Flattens rule [] []
  | typed (reference : VariableReference) {type : String} {rest out : List Char}
      (declared : Declares rule (String.ofList reference.name) type)
      (tail : Flattens rule rest out) :
      Flattens rule (reference.written ++ rest)
        ('%' :: (writtenPosition reference.position ++ type.toList) ++ out)
  | untyped (reference : VariableReference) {rest out : List Char}
      (undeclared : ∀ type, ¬Declares rule (String.ofList reference.name) type)
      (tail : Flattens rule rest out) :
      Flattens rule (reference.written ++ rest) (reference.written ++ out)
  | character {c : Char} {rest out : List Char}
      (outside : ∀ reference : VariableReference, ¬reference.written <+: c :: rest)
      (tail : Flattens rule rest out) :
      Flattens rule (c :: rest) (c :: out)

variable {rule : PropertyList}

theorem valueType?_eq_none_iff {name : String} :
    valueType? rule name = none ↔ ∀ type, ¬Declares rule name type := by
  simp only [Option.eq_none_iff_forall_ne_some, ne_eq, valueType?_eq_some_iff]

theorem flattenFormat_written (reference : VariableReference) (rest : List Char) :
    flattenFormat rule (reference.written ++ rest) =
      substituted rule reference.toReference ++ flattenFormat rule rest :=
  flattenFormat_reference (reference.reference?_body rest)

theorem substituted_of_undeclared {reference : VariableReference}
    (h : ∀ type, ¬Declares rule (String.ofList reference.name) type) :
    substituted rule reference.toReference = reference.written := by
  rw [← reference.written_toReference]
  simp only [substituted, VariableReference.toReference, valueType?_eq_none_iff.2 h]

/-- Where no reference begins, a character is kept. -/
theorem flattenFormat_character {c : Char} {rest : List Char}
    (h : ∀ reference : VariableReference, ¬reference.written <+: c :: rest) :
    flattenFormat rule (c :: rest) = c :: flattenFormat rule rest := by
  by_cases hc : c = '%'
  · subst hc
    apply flattenFormat_percent
    rw [Option.eq_none_iff_forall_ne_some]
    rintro ⟨found, behind⟩ hfound
    obtain ⟨reference, -, hbody⟩ := exists_variableReference hfound
    exact h reference ⟨behind, congrArg ('%' :: ·) hbody⟩
  · rw [flattenFormat]
    exact hc

/-- A text can be flattened in one way only. -/
theorem Flattens.flattenFormat_eq {cs out : List Char} (h : Flattens rule cs out) :
    flattenFormat rule cs = out := by
  induction h with
  | nil => rw [flattenFormat]
  | typed reference declared _ ih =>
    rw [flattenFormat_written, ih, substituted_of_declares (valueType?_eq_some_iff.2 declared)]
    rfl
  | untyped reference undeclared _ ih =>
    rw [flattenFormat_written, ih, substituted_of_undeclared undeclared]
  | character outside _ ih => rw [flattenFormat_character outside, ih]

theorem not_isPrefix_of_reference?_eq_none {cs : List Char} (h : reference? cs = none)
    (reference : VariableReference) : ¬reference.written <+: '%' :: cs := by
  rintro ⟨rest, hrest⟩
  obtain rfl := (List.cons.inj hrest).2
  simp [reference.reference?_body] at h

theorem flattens_flattenFormat (cs : List Char) : Flattens rule cs (flattenFormat rule cs) := by
  fun_induction flattenFormat rule cs with
  | case1 => exact .nil
  | case2 cs found rest hfound ih =>
    obtain ⟨reference, rfl, rfl⟩ := exists_variableReference hfound
    cases htype : valueType? rule (String.ofList reference.name) with
    | some type =>
      rw [substituted_of_declares htype]
      exact .typed reference (valueType?_eq_some_iff.1 htype) ih
    | none =>
      have hundeclared := valueType?_eq_none_iff.1 htype
      rw [substituted_of_undeclared hundeclared]
      exact .untyped reference hundeclared ih
  | case3 cs hnone ih => exact .character (not_isPrefix_of_reference?_eq_none hnone) ih
  | case4 c cs hc ih =>
    refine .character (fun reference hbegins ↦ ?_) ih
    exact hc (List.cons_prefix_cons.1 hbegins).1.symm

/-! ## Flattening again -/

theorem exists_substituted_eq_cons (rule : PropertyList) (reference : Reference) :
    ∃ behind, substituted rule reference = '%' :: behind := by
  unfold substituted
  split
  · exact ⟨_, rfl⟩
  · exact ⟨_, rfl⟩

/-- Up to its next percent sign a text is kept. -/
theorem isPrefix_of_isPrefix_flattenFormat {front cs : List Char} (hplain : '%' ∉ front)
    (h : front <+: flattenFormat rule cs) : front <+: cs := by
  induction front generalizing cs with
  | nil => exact List.nil_prefix
  | cons c front ih =>
    obtain ⟨hc, hfront⟩ := not_or.1 (mt List.mem_cons.2 hplain)
    fun_cases flattenFormat rule cs with
    | case1 => simp [flattenFormat] at h
    | case2 cs reference rest hfound =>
      obtain ⟨behind, hbehind⟩ := exists_substituted_eq_cons rule reference
      rw [flattenFormat_reference hfound, hbehind, List.cons_append] at h
      exact absurd (List.cons_prefix_cons.1 h).1.symm hc
    | case3 cs hnone =>
      rw [flattenFormat_percent hnone] at h
      exact absurd (List.cons_prefix_cons.1 h).1.symm hc
    | case4 d cs hd =>
      rw [flattenFormat] at h
      · obtain ⟨rfl, hrest⟩ := List.cons_prefix_cons.1 h
        exact List.cons_prefix_cons.2 ⟨rfl, ih hfront hrest⟩
      · exact hd

/-- A percent sign that begins no reference begins none in the flattened text. -/
theorem reference?_flattenFormat_eq_none {cs : List Char} (h : reference? cs = none) :
    reference? (flattenFormat rule cs) = none := by
  rw [Option.eq_none_iff_forall_ne_some]
  rintro ⟨found, behind⟩ hfound
  obtain ⟨reference, -, hbody⟩ := exists_variableReference hfound
  obtain ⟨rest, rfl⟩ :=
    isPrefix_of_isPrefix_flattenFormat reference.percent_notMem_body ⟨behind, hbody⟩
  simp [reference.reference?_body] at h

/-- What takes the place of a reference is kept, whatever follows it. -/
theorem flattenFormat_substituted (htyped : Typed rule) (reference : VariableReference)
    (rest : List Char) :
    flattenFormat rule (substituted rule reference.toReference ++ rest) =
      substituted rule reference.toReference ++ flattenFormat rule rest := by
  cases htype : valueType? rule (String.ofList reference.name) with
  | some type =>
    obtain ⟨-, specifier, hposition, hbody⟩ := htyped _ _ (valueType?_eq_some_iff.1 htype)
    have hsubstituted : substituted rule reference.toReference =
        (specifier.placed reference.position).written := by
      rw [substituted_of_declares htype, Specifier.written_placed hposition, hbody]
      rfl
    rw [hsubstituted]
    exact kept_written _ rule rest
  | none =>
    have hundeclared := valueType?_eq_none_iff.1 htype
    rw [substituted_of_undeclared hundeclared, flattenFormat_written,
      substituted_of_undeclared hundeclared]

theorem flattenFormat_flattenFormat (htyped : Typed rule) (cs : List Char) :
    flattenFormat rule (flattenFormat rule cs) = flattenFormat rule cs := by
  fun_induction flattenFormat rule cs with
  | case1 => rw [flattenFormat]
  | case2 cs found rest hfound ih =>
    obtain ⟨reference, rfl, -⟩ := exists_variableReference hfound
    rw [flattenFormat_substituted htyped, ih]
  | case3 cs hnone ih => rw [flattenFormat_percent (reference?_flattenFormat_eq_none hnone), ih]
  | case4 c cs hc ih =>
    rw [flattenFormat, ih]
    exact hc

/-! ## Flattening a rule again -/

/-- A rule with another format string. -/
def withFormat (format : String) : PropertyList → PropertyList
  | .dict pairs => .dict <| pairs.map fun (key, value) ↦
      (key, if key = formatKey then .string format else value)
  | rule => rule

theorem get?_withFormat (format name : String) (rule : PropertyList) :
    (withFormat format rule).get? name =
      if name = formatKey then (rule.get? name).map fun _ ↦ .string format
      else rule.get? name := by
  cases rule with
  | dict pairs =>
    simp only [withFormat, PropertyList.get?]
    induction pairs with
    | nil => simp
    | cons pair pairs ih =>
      obtain ⟨key, value⟩ := pair
      rw [List.map_cons, List.lookup_cons, List.lookup_cons, ih]
      by_cases hname : name = key
      · subst hname
        by_cases hkey : name = formatKey <;> simp [hkey]
      · simp [beq_eq_false_iff_ne.2 hname]
  | string | array | other => simp [withFormat, PropertyList.get?]

/-- The format of a rule is no variable with a type, so another format leaves the types alone. -/
theorem valueType?_withFormat {format : String} (hformat : rule.get? formatKey = some (.string format))
    (format' name : String) :
    valueType? (withFormat format' rule) name = valueType? rule name := by
  simp only [valueType?, get?_withFormat]
  by_cases hname : name = formatKey
  · rw [if_pos hname, hname, hformat]
    rfl
  · rw [if_neg hname]

theorem flattenFormat_congr {rule rule' : PropertyList}
    (h : ∀ name, valueType? rule name = valueType? rule' name) (cs : List Char) :
    flattenFormat rule cs = flattenFormat rule' cs := by
  fun_induction flattenFormat rule cs with
  | case1 => rw [flattenFormat]
  | case2 cs reference rest hfound ih =>
    rw [flattenFormat_reference hfound, ih, substituted, substituted, h]
  | case3 cs hnone ih => rw [flattenFormat_percent hnone, ih]
  | case4 c cs hc ih =>
    rw [flattenFormat, ih]
    exact hc

theorem flatten?_of_format {format : String} (h : rule.get? formatKey = some (.string format)) :
    flatten? rule = some (String.ofList (flattenFormat rule format.toList)) := by
  simp [flatten?, h, PropertyList.asString?]

/-- Flattening a rule substitutes every reference of its format, from left to right, and keeps all
else. If all types are specifiers, the rule with the flattened text for its format is flattened to
the same text. -/
theorem flattens_iff_flatten {format : String}
    (hformat : rule.get? formatKey = some (.string format)) (htyped : Typed rule) :
    ∃ flattened : String, flatten? rule = some flattened ∧
      (∀ text : List Char, Flattens rule format.toList text ↔ text = flattened.toList) ∧
      flatten? (withFormat flattened rule) = some flattened := by
  refine ⟨_, flatten?_of_format hformat, fun text ↦ ?_, ?_⟩
  · rw [String.toList_ofList]
    constructor
    · exact fun h ↦ h.flattenFormat_eq.symm
    · rintro rfl
      exact flattens_flattenFormat format.toList
  · have hagain := get?_withFormat (String.ofList (flattenFormat rule format.toList)) formatKey rule
    rw [if_pos rfl, hformat, Option.map_some] at hagain
    rw [flatten?_of_format hagain, String.toList_ofList,
      flattenFormat_congr (valueType?_withFormat hformat _), flattenFormat_flattenFormat htyped]

/-- The format of `progressRule` has references by position, behind an escaped percent sign and to a
variable without a type. -/
theorem flattens_iff_flatten_progressRule :
    progressRule.get? formatKey = some (.string "%1$#@files@ of %%#@files@ at %05.1f, %#@lost@") ∧
      Typed progressRule ∧
      ∃ flattened : String, flatten? progressRule = some flattened ∧
        (∀ text : List Char,
          Flattens progressRule "%1$#@files@ of %%#@files@ at %05.1f, %#@lost@".toList text ↔
            text = flattened.toList) ∧
        flatten? (withFormat flattened progressRule) = some flattened :=
  ⟨rfl, typed_progressRule, flattens_iff_flatten rfl typed_progressRule⟩

end LocalizedAccessors.PluralRule
