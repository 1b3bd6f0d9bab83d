/-!
# Fields and lines

A text cut at a separator. Fields keep the empty parts and pieces leave them out; a line ends
before a line feed or before a carriage return and a line feed.
-/

namespace LocalizedAccessors.Text

/-- The parts of a text between separators, empty ones included. -/
def fields (separator : Char) (text : String) : List String :=
  (text.toList.splitOn separator).map String.ofList

/-- The non-empty parts of a text between separators. -/
def pieces (separator : Char) (text : String) : List String :=
  (fields separator text).filter (· ≠ "")

/-- A part between separators has none in it, and what is in it is in the whole. -/
theorem of_mem_splitOn {separator : Char} {cs part : List Char} (h : part ∈ cs.splitOn separator) :
    separator ∉ part ∧ part ⊆ cs := by
  induction cs generalizing part with
  | nil => simp_all
  | cons c rest ih =>
    rw [List.splitOn_cons_eq_if_modifyHead] at h
    obtain ⟨head, others, hsplit⟩ := List.exists_cons_of_ne_nil (List.splitOn_ne_nil separator rest)
    rw [hsplit] at h ih
    split at h
    · rcases List.mem_cons.1 h with hempty | hold
      · simp [hempty]
      · obtain ⟨hnot, hsub⟩ := ih hold
        exact ⟨hnot, List.subset_cons_of_subset c hsub⟩
    · next hc =>
      rcases List.mem_cons.1 h with hhead | hold
      · obtain ⟨hnot, hsub⟩ := ih (List.mem_cons_self ..)
        rw [hhead]
        refine ⟨?_, List.cons_subset_cons c hsub⟩
        rw [List.mem_cons]
        rintro (heq | hmem)
        · simp [heq] at hc
        · exact hnot hmem
      · obtain ⟨hnot, hsub⟩ := ih (List.mem_cons_of_mem _ hold)
        exact ⟨hnot, List.subset_cons_of_subset c hsub⟩

/-- A piece is not empty and has no separator in it, and what is in it is in the text. -/
theorem of_mem_pieces {separator : Char} {text piece : String} (h : piece ∈ pieces separator text) :
    piece ≠ "" ∧ separator ∉ piece.toList ∧ piece.toList ⊆ text.toList := by
  simp only [pieces, fields, List.mem_filter, List.mem_map, decide_eq_true_eq] at h
  obtain ⟨⟨part, hpart, rfl⟩, hne⟩ := h
  exact ⟨hne, by simpa using of_mem_splitOn hpart⟩

/-- A line without the carriage return at its end. -/
def withoutReturn (line : List Char) : List Char :=
  if line.getLast? = some '\r' then line.dropLast else line

/-- The lines of a text. What follows the last line feed is a line of its own, as it stands, unless
it is empty. -/
def lines (text : String) : List String :=
  let parts := text.toList.splitOn '\n'
  let unfinished := parts.getLast?.filter (· ≠ [])
  (parts.dropLast.map withoutReturn ++ unfinished.toList).map String.ofList

end LocalizedAccessors.Text
