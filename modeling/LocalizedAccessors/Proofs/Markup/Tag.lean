import LocalizedAccessors.Proofs.Markup.Construct
import Mathlib.Data.Bool.AllAny
import Mathlib.Data.List.TakeWhile

/-!
# Reading tags

A tag ends at its first `>` outside quotation marks. In a tag of the grammar every other `>` is
quoted and every quotation is closed, so a tag is read with its name.
-/

namespace LocalizedAccessors.Markup

/-! ## Quotations -/

/-- The quotation mark that is open after one more byte. -/
def quoteAfter (quote : Option UInt8) (b : UInt8) : Option UInt8 :=
  match quote with
  | none => if b == byte '\"' || b == byte '\'' then some b else none
  | some mark => if b == mark then none else some mark

theorem openQuote_reverse (content : Bytes) :
    openQuote content.reverse = content.foldl quoteAfter none := by
  rw [openQuote, List.foldr_reverse]
  rfl

/-- Whether all quotations within some bytes are closed, and every `>` is quoted. -/
structure Quoted (content : Bytes) : Prop where
  closed : content.foldl quoteAfter none = none
  guarded : ∀ front, front ++ [byte '>'] <+: content → front.foldl quoteAfter none ≠ none

namespace Quoted

theorem nil : Quoted [] where
  closed := rfl
  guarded front h := by simp at h

theorem append {front rest : Bytes} (hfront : Quoted front) (hrest : Quoted rest) :
    Quoted (front ++ rest) where
  closed := by rw [List.foldl_append, hfront.closed, hrest.closed]
  guarded inner h := by
    obtain hwithin | ⟨deeper, rfl, hdeeper⟩ := mark_append_cases h
    · exact hfront.guarded inner hwithin
    · rw [List.foldl_append, hfront.closed]
      exact hrest.guarded deeper hdeeper

theorem plain {b : UInt8} (h : b ∉ ascii ">\"'") : Quoted [b] where
  closed := by
    have hmarks : b ≠ byte '\"' ∧ b ≠ byte '\'' := by
      constructor <;> rintro rfl <;> exact h (by decide)
    simp [quoteAfter, hmarks]
  guarded inner hinner := by
    have hbracket : byte '>' ∈ [b] := hinner.subset (by simp)
    exact absurd (List.mem_singleton.1 hbracket ▸ h) (by decide)

theorem of_forall {content : Bytes} (h : ∀ b ∈ content, b ∉ ascii ">\"'") : Quoted content := by
  induction content with
  | nil => exact nil
  | cons b content ih =>
    obtain ⟨hb, hcontent⟩ := List.forall_mem_cons.1 h
    exact (plain hb).append (ih hcontent)

theorem foldl_of_notMem {mark : UInt8} {body : Bytes} (h : mark ∉ body) :
    body.foldl quoteAfter (some mark) = some mark := by
  induction body with
  | nil => rfl
  | cons b body ih =>
    obtain ⟨hb, hbody⟩ := not_or.1 (mt List.mem_cons.2 h)
    have hstep : quoteAfter (some mark) b = some mark := by simp [quoteAfter, Ne.symm hb]
    rw [List.foldl_cons, hstep, ih hbody]

theorem quoted {mark : UInt8} {body : Bytes} (hmark : mark ∈ ascii "\"'") (h : mark ∉ body) :
    Quoted (mark :: (body ++ [mark])) := by
  have hmarks : ∀ b ∈ ascii "\"'", quoteAfter none b = some b :=
    List.all_iff_forall_prop.1 (by decide)
  have hopens := hmarks mark hmark
  have hbracket : byte '>' ≠ mark := by
    rintro rfl
    exact absurd hmark (by decide)
  constructor
  · rw [List.foldl_cons, hopens, List.foldl_append, foldl_of_notMem h]
    simp [quoteAfter]
  · intro inner hinner
    have hbody := @prefix_of_notMem inner (mark :: body) [mark] _ hinner (by simpa using hbracket)
    cases inner with
    | nil => exact absurd (List.cons_prefix_cons.1 hbody).1 hbracket
    | cons b inner =>
      obtain ⟨rfl, hfront⟩ := List.cons_prefix_cons.1 hbody
      have hinside : b ∉ inner := fun hmem ↦ h (hfront.subset (List.mem_append_left _ hmem))
      rw [List.foldl_cons, hopens, foldl_of_notMem hinside]
      exact Option.some_ne_none b

end Quoted

theorem quoted_attributes (attributes : Attributes) : Quoted attributes.written := by
  unfold Attributes.written
  induction attributes.pieces with
  | nil => exact Quoted.nil
  | cons piece pieces ih =>
    rw [List.flatMap_cons]
    refine Quoted.append ?_ ih
    cases piece with
    | plain b outside => exact Quoted.plain outside
    | quoted mark isMark body unmarked => exact Quoted.quoted isMark unmarked

theorem quoted_name (name : Name) : Quoted name.bytes :=
  have hmarks : ∀ b ∈ ascii ">\"'", b ∈ ascii "<>/\"'" := List.all_iff_forall_prop.1 (by decide)
  Quoted.of_forall fun b hb hmark ↦ (name.plain b hb).2 (hmarks b hmark)

theorem quoted_startContent (name : Name) (attributes : Attributes) :
    Quoted (startContent name attributes) :=
  (quoted_name name).append (quoted_attributes attributes)

theorem quoted_emptyContent (name : Name) (attributes : Attributes) :
    Quoted (emptyContent name attributes) :=
  (quoted_startContent name attributes).append (Quoted.plain (by decide))

theorem quoted_blanks (blanks : Blanks) : Quoted blanks.bytes :=
  have hmarks : ∀ b ∈ ascii ">\"'", isSpace b = false := List.all_iff_forall_prop.1 (by decide)
  Quoted.of_forall fun b hb hmark ↦ by simpa [hmarks b hmark] using blanks.isSpace b hb

theorem quoted_endContent (name : Name) (blanks : Blanks) : Quoted (endContent name blanks) :=
  (@Quoted.plain (byte '/') (by decide)).append ((quoted_name name).append (quoted_blanks blanks))

/-! ## Tags as constructs -/

/-- Start tags and end tags end alike. -/
theorem reads_of_quoted {construct : Construct} {opened after : List Bytes} {content : Bytes}
    {event : Event} (htag : construct = .startTag ∨ construct = .endTag) (h : Quoted content)
    (hof : Construct.of content = .ok construct)
    (hevent : construct.event opened content = .ok (event, after)) :
    Reads opened content event after := by
  have hcloses : ∀ seen, construct.closes seen = (openQuote seen).isNone := by
    rcases htag with rfl | rfl <;> exact fun _ ↦ rfl
  refine reads_of hof (fun front hfront ↦ ?_) ?_ hevent
  · rw [hcloses, openQuote_reverse]
    simpa [Option.isSome_iff_ne_none] using h.guarded front hfront
  · rw [hcloses, openQuote_reverse, h.closed]
    rfl

section Tags

variable (opened : List Bytes) (name : Name) (attributes : Attributes)

theorem tagName_startContent : tagName (startContent name attributes) = name.bytes := by
  have hname : ∀ b ∈ name.bytes, (!isSpace b) = true := fun b hb ↦ by simp [(name.plain b hb).1]
  have hopening := attributes.opening
  rw [tagName, startContent, List.takeWhile_append_of_pos hname, Attributes.written]
  cases hwritten : attributes.pieces.flatMap AttributePiece.written with
  | nil => simp
  | cons b rest =>
    have hblank : isSpace b = true := hopening b (by simp [hwritten])
    simp [hblank]

theorem of_startContent : Construct.of (startContent name attributes) = .ok .startTag := by
  obtain ⟨b, rest, hbytes⟩ := List.exists_cons_of_ne_nil name.ne_nil
  have hplain := (name.plain b (by simp [hbytes])).2
  have hopening := name.opening b (by simp [hbytes])
  have hslash : b ≠ byte '/' := by
    rintro rfl
    exact hplain (by decide)
  have hmarks : b ≠ byte '?' ∧ b ≠ byte '!' := by
    constructor <;> rintro rfl <;> exact hopening (by decide)
  simp [startContent, hbytes, Construct.of, hslash, hmarks]

theorem getLast?_startContent : (startContent name attributes).getLast? ≠ some (byte '/') := by
  intro hlast
  rw [startContent, List.getLast?_append, Attributes.written] at hlast
  cases hwritten : (attributes.pieces.flatMap AttributePiece.written).getLast? with
  | some b =>
    rw [hwritten] at hlast
    exact attributes.ending (hwritten.trans hlast)
  | none =>
    rw [hwritten, Option.none_or] at hlast
    exact (name.plain _ (List.mem_of_getLast? hlast)).2 (by decide)

theorem reads_start :
    Reads opened (startContent name attributes) (.start name.bytes) (name.bytes :: opened) := by
  refine reads_of_quoted (.inl rfl) (quoted_startContent name attributes)
    (of_startContent name attributes) ?_
  rw [Construct.event, if_neg (getLast?_startContent name attributes),
    tagName_startContent name attributes]

theorem reads_empty : Reads opened (emptyContent name attributes) (.empty name.bytes) opened := by
  refine reads_of_quoted (.inl rfl) (quoted_emptyContent name attributes)
    (Construct.of_append _ (of_startContent name attributes)) ?_
  have hlast : (emptyContent name attributes).getLast? = some (byte '/') := by simp [emptyContent]
  rw [Construct.event, if_pos hlast, emptyContent, List.dropLast_concat,
    tagName_startContent name attributes]

theorem endName_append (blanks : Blanks) : endName (name.bytes ++ blanks.bytes) = name.bytes := by
  have hname : ∀ b ∈ name.bytes.reverse, isSpace b = false := fun b hb ↦
    (name.plain b (List.mem_reverse.1 hb)).1
  obtain ⟨b, rest, hreverse⟩ := List.exists_cons_of_ne_nil (List.reverse_ne_nil_iff.2 name.ne_nil)
  have hall : (name.bytes ++ blanks.bytes).all isSpace = false := by
    refine List.all_eq_false.2 ⟨b, List.mem_append_left _ ?_, ?_⟩
    · exact List.mem_reverse.1 (by simp [hreverse])
    · simp [hname b (by simp [hreverse])]
  have hblanks : ∀ b ∈ blanks.bytes.reverse, isSpace b = true := fun b hb ↦
    blanks.isSpace b (List.mem_reverse.1 hb)
  rw [endName, hall, if_neg Bool.false_ne_true, List.reverse_append,
    List.dropWhile_append_of_pos hblanks, hreverse,
    List.dropWhile_cons_of_neg (by simp [hname b (by simp [hreverse])]), ← hreverse,
    List.reverse_reverse]

theorem reads_end (blanks : Blanks) :
    Reads (name.bytes :: opened) (endContent name blanks) (.close name.bytes) opened := by
  refine reads_of_quoted (.inr rfl) (quoted_endContent name blanks) rfl ?_
  have htail : endName (endContent name blanks).tail = name.bytes := endName_append name blanks
  simp only [Construct.event, htail, if_true]

end Tags

end LocalizedAccessors.Markup
