import LocalizedAccessors.Text.Field

/-!
# Pieces between separators

The parts of a text between separators of a class, without the empty ones. Separators only set such
parts apart: how many of them stand in one place makes no difference, and those around the whole
text make none either.
-/

namespace LocalizedAccessors.Text

variable {isSeparator : Char → Bool} {rest : List Char}

theorem filter_splitOnP_separators {separators : List Char}
    (h : ∀ c ∈ separators, isSeparator c = true) (cs : List Char) :
    ((separators ++ cs).splitOnP isSeparator).filter (· ≠ []) =
      (cs.splitOnP isSeparator).filter (· ≠ []) := by
  induction separators with
  | nil => rfl
  | cons c separators ih =>
    obtain ⟨hc, hothers⟩ := List.forall_mem_cons.1 h
    rw [← ih hothers, List.cons_append, List.splitOnP_cons_eq_if_modifyHead, if_pos hc,
      List.filter_cons_of_neg (by simp)]

theorem filter_splitOnP_part {part : List Char} (hne : part ≠ [])
    (h : ∀ c ∈ part, isSeparator c = false) (hrest : ∀ c ∈ rest.head?, isSeparator c = true) :
    ((part ++ rest).splitOnP isSeparator).filter (· ≠ []) =
      part :: (rest.splitOnP isSeparator).filter (· ≠ []) := by
  cases rest with
  | nil => simp [List.splitOnP_eq_singleton h, hne]
  | cons c rest =>
    have hc := hrest c rfl
    have hbehind := filter_splitOnP_separators (List.forall_mem_singleton.2 hc) rest
    rw [List.singleton_append] at hbehind
    rw [hbehind, List.splitOnP_append_cons_of_forall_mem h c hc,
      List.filter_cons_of_pos (by simpa using hne)]

theorem pieces_ofList (separator : Char) (cs : List Char) :
    pieces separator (String.ofList cs) =
      ((cs.splitOnP (· == separator)).filter (· ≠ [])).map String.ofList := by
  rw [pieces, fields, String.toList_ofList, List.filter_map]
  congr 2
  funext part
  simp

end LocalizedAccessors.Text
