import LocalizedAccessors.Accessor.Source
import Mathlib.Data.List.Sort
import Mathlib.Data.String.Basic

/-!
# The order of declaration

Entries and namespaces are sorted by two strings. Sorting by a pair of strings gives the same list
for every arrangement of the same members, as long as no two members have the same pair.
-/

namespace LocalizedAccessors

theorem lexicographic_iff {a b : String × String} :
    lexicographic a b = true ↔ a.1 < b.1 ∨ a.1 = b.1 ∧ a.2 ≤ b.2 := by
  simp [lexicographic]

theorem lexicographic_total (a b : String × String) :
    (lexicographic a b || lexicographic b a) = true := by
  rw [Bool.or_eq_true, lexicographic_iff, lexicographic_iff]
  rcases lt_trichotomy a.1 b.1 with h | h | h
  · exact .inl (.inl h)
  · exact (le_total a.2 b.2).imp (fun hle ↦ .inr ⟨h, hle⟩) fun hle ↦ .inr ⟨h.symm, hle⟩
  · exact .inr (.inl h)

theorem lexicographic_trans {a b c : String × String} (hab : lexicographic a b = true)
    (hbc : lexicographic b c = true) : lexicographic a c = true := by
  rw [lexicographic_iff] at *
  rcases hab with hab | ⟨hab, hab'⟩
  · rcases hbc with hbc | ⟨hbc, -⟩
    · exact .inl (hab.trans hbc)
    · exact .inl (hbc ▸ hab)
  · rcases hbc with hbc | ⟨hbc, hbc'⟩
    · exact .inl (hab ▸ hbc)
    · exact .inr ⟨hab.trans hbc, hab'.trans hbc'⟩

theorem lexicographic_antisymm {a b : String × String} (hab : lexicographic a b = true)
    (hba : lexicographic b a = true) : a = b := by
  rw [lexicographic_iff] at *
  rcases hab with hab | ⟨hab, hab'⟩
  · rcases hba with hba | ⟨hba, -⟩
    · exact absurd hab hba.not_gt
    · exact absurd hab hba.not_gt
  · rcases hba with hba | ⟨-, hba'⟩
    · exact absurd hba hab.not_gt
    · exact Prod.ext hab (le_antisymm hab' hba')

section Sorting

variable {α : Type} (rank : α → String × String)

theorem pairwise_mergeSort_lexicographic (members : List α) :
    (members.mergeSort fun a b ↦ lexicographic (rank a) (rank b)).Pairwise
      fun a b ↦ lexicographic (rank a) (rank b) = true := by
  apply List.pairwise_mergeSort
  · intro a b c hab hbc
    exact lexicographic_trans hab hbc
  · intro a b
    exact lexicographic_total (rank a) (rank b)

/-- Members that can be told apart have one order. -/
theorem mergeSort_lexicographic_of_perm {members others : List α} (perm : members.Perm others)
    (h : ∀ a ∈ members, ∀ b ∈ members, rank a = rank b → a = b) :
    (members.mergeSort fun a b ↦ lexicographic (rank a) (rank b)) =
      others.mergeSort fun a b ↦ lexicographic (rank a) (rank b) := by
  apply List.Perm.eq_of_pairwise _ (pairwise_mergeSort_lexicographic rank members)
    (pairwise_mergeSort_lexicographic rank others)
    ((List.mergeSort_perm ..).trans (perm.trans (List.mergeSort_perm ..).symm))
  intro a b ha hb hab hba
  exact h a (List.mem_mergeSort.1 ha) b (perm.mem_iff.2 (List.mem_mergeSort.1 hb))
    (lexicographic_antisymm hab hba)

end Sorting

theorem pairwise_mergeSort_strings (texts : List String) :
    (texts.mergeSort (· ≤ ·)).Pairwise (· ≤ ·) := by
  have hsorted : (texts.mergeSort (· ≤ ·)).Pairwise fun a b ↦ decide (a ≤ b) = true := by
    apply List.pairwise_mergeSort
    · intro a b c hab hbc
      exact decide_eq_true ((of_decide_eq_true hab).trans (of_decide_eq_true hbc))
    · intro a b
      simpa using le_total a b
  exact hsorted.imp of_decide_eq_true

/-- Without repetition the order is strict. -/
theorem pairwise_lt_mergeSort_strings {texts : List String} (nodup : texts.Nodup) :
    (texts.mergeSort (· ≤ ·)).Pairwise (· < ·) := by
  have hnodup : (texts.mergeSort (· ≤ ·)).Nodup := (List.mergeSort_perm ..).nodup_iff.2 nodup
  exact hnodup.imp₂ (fun _ _ hne hle ↦ lt_of_le_of_ne hle hne) (pairwise_mergeSort_strings texts)

/-- Strings in ascending order are the same list if they are the same strings. -/
theorem mergeSort_strings_of_perm {texts others : List String} (perm : texts.Perm others) :
    texts.mergeSort (· ≤ ·) = others.mergeSort (· ≤ ·) :=
  List.Perm.eq_of_pairwise (fun _ _ _ _ ↦ le_antisymm) (pairwise_mergeSort_strings texts)
    (pairwise_mergeSort_strings others)
    ((List.mergeSort_perm ..).trans (perm.trans (List.mergeSort_perm ..).symm))

theorem Entry.sorted_of_perm {entries others : List Entry} (perm : entries.Perm others)
    (distinct : (entries.map Entry.key).Nodup) : Entry.sorted entries = Entry.sorted others :=
  mergeSort_lexicographic_of_perm (fun entry : Entry ↦ (entry.identifier, entry.key)) perm
    fun _ ha _ hb h ↦ List.inj_on_of_nodup_map distinct ha hb (Prod.ext_iff.1 h).2

end LocalizedAccessors
