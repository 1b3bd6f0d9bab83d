import LocalizedAccessors.Proofs.StringsTable.Reading
import LocalizedAccessors.Swift.Literal

/-!
# Literals as quoted strings

Source code and strings tables each have escapes of their own. Whatever a literal writes for a
character is one of the ways in which a quoted string may write it, and has the same meaning there.
So a literal is read back as a quoted string, up to its own closing quote and no further, whatever
stands behind it. A literal thus tells where it ends, and none begins with another one.
-/

namespace LocalizedAccessors.StringsTable

open Swift (escapedChar literal literalBody)

theorem exists_glyph (c : Char) :
    ∃ glyph : Glyph, glyph.written = escapedChar c ∧ glyph.meaning = c := by
  unfold escapedChar
  split
  · exact ⟨.other '\"' (by decide), rfl, rfl⟩
  · exact ⟨.other '\\' (by decide), rfl, rfl⟩
  · exact ⟨.lineFeed, rfl, rfl⟩
  · exact ⟨.carriageReturn, rfl, rfl⟩
  · exact ⟨.tab, rfl, rfl⟩
  · next hquote hbackslash _ _ _ => exact ⟨.raw c ⟨hquote, hbackslash⟩, rfl, rfl⟩

theorem exists_glyphs (cs : List Char) : ∃ glyphs : List Glyph,
    glyphs.flatMap Glyph.written = cs.flatMap escapedChar ∧ glyphs.map Glyph.meaning = cs := by
  induction cs with
  | nil => exact ⟨[], rfl, rfl⟩
  | cons c cs ih =>
    obtain ⟨glyph, hwritten, hmeaning⟩ := exists_glyph c
    obtain ⟨glyphs, hwrittens, hmeanings⟩ := ih
    refine ⟨glyph :: glyphs, ?_, ?_⟩
    · rw [List.flatMap_cons, List.flatMap_cons, hwritten, hwrittens]
    · rw [List.map_cons, hmeaning, hmeanings]

theorem quoted_literalBody (cs rest : List Char) :
    quoted (literalBody cs ++ rest) = (cs, rest) := by
  obtain ⟨glyphs, hwritten, hmeaning⟩ := exists_glyphs cs
  calc
    quoted (literalBody cs ++ rest) = quoted (glyphs.flatMap Glyph.written ++ '\"' :: rest) := by
      rw [literalBody, hwritten, List.append_assoc, List.singleton_append]
    _ = (glyphs.map Glyph.meaning, rest) := quoted_glyphs glyphs rest
    _ = (cs, rest) := by rw [hmeaning]

theorem literal_isPrefix_iff {one other : String} :
    (literal one).toList <+: (literal other).toList ↔ one = other := by
  constructor
  · intro h
    rw [Swift.toList_literal, Swift.toList_literal, List.cons_prefix_cons] at h
    obtain ⟨rest, hrest⟩ := h.2
    -- The longer literal is read in two ways, and there is only one way to read it.
    have hshort := quoted_literalBody one.toList rest
    have hlong := quoted_literalBody other.toList []
    rw [List.append_nil, ← hrest, hshort] at hlong
    exact String.toList_inj.1 (Prod.mk.inj hlong).1
  · rintro rfl
    exact List.prefix_refl _

theorem literal_injective : Function.Injective literal := by
  intro one other hsame
  have hbegins : (literal one).toList <+: (literal other).toList := hsame ▸ List.prefix_refl _
  exact literal_isPrefix_iff.1 hbegins

/-- A literal is read back from behind its opening quote, and what follows it is left as it is. So
no literal is a proper prefix of another, different texts have different literals, and no literal
has a line break or a tab in it. -/
theorem quoted_literal :
    (∀ text rest : String, ∃ behind, (literal text ++ rest).toList = '\"' :: behind ∧
        quoted behind = (text.toList, rest.toList)) ∧
      (∀ one other, (literal one).toList <+: (literal other).toList ↔ one = other) ∧
      Function.Injective literal ∧
      ∀ text, ∀ c ∈ ['\n', '\r', '\t'], c ∉ (literal text).toList := by
  refine ⟨?_, fun one other ↦ literal_isPrefix_iff, literal_injective, ?_⟩
  · intro text rest
    refine ⟨literalBody text.toList ++ rest.toList, ?_, quoted_literalBody _ _⟩
    rw [String.toList_append, Swift.toList_literal, List.cons_append]
  · intro text c hc
    exact Swift.notMem_literal hc text

end LocalizedAccessors.StringsTable
