import LocalizedAccessors.Proofs.Markup.Grammar
import Mathlib.Data.List.Infix

/-!
# Reading constructs

A construct is read as a whole whatever follows it, and no front of it is read at all: it ends at
the first `>` that closes it. So what is cut off within a construct is always a fault.
-/

namespace LocalizedAccessors.Markup

/-! ## The first closing bracket -/

/-- Whether no `>` within some content closes the construct. -/
def StaysOpen (closes : Bytes → Bool) (content : Bytes) : Prop :=
  ∀ front, front ++ [byte '>'] <+: content → closes front.reverse = false

theorem upToClosing_append {closes : Bytes → Bool} {seen content : Bytes}
    (h : StaysOpen (fun bytes ↦ closes (bytes ++ seen)) content) (rest : Bytes) :
    upToClosing closes seen (content ++ rest) = upToClosing closes (content.reverse ++ seen) rest := by
  induction content generalizing seen with
  | nil => rfl
  | cons b content ih =>
    have hb : (b == byte '>' && closes seen) = false := by
      by_cases heq : b = byte '>'
      · have hseen : closes seen = false := h [] (by simp [heq])
        simp [hseen]
      · simp [heq]
    have htail : StaysOpen (fun bytes ↦ closes (bytes ++ b :: seen)) content := by
      intro front hfront
      have hwhole := h (b :: front) (List.cons_prefix_cons.2 ⟨rfl, hfront⟩)
      simpa using hwhole
    rw [List.cons_append, upToClosing, hb, if_neg Bool.false_ne_true, ih htail]
    simp

theorem StaysOpen.front {closes : Bytes → Bool} {front content : Bytes}
    (h : StaysOpen closes content) (hfront : front <+: content) : StaysOpen closes front :=
  fun inner hinner ↦ h inner (hinner.trans hfront)

theorem upToClosing_eq_none {closes : Bytes → Bool} {content : Bytes}
    (h : StaysOpen closes content) : upToClosing closes [] content = none := by
  have hread := @upToClosing_append closes [] content (by simpa using h) []
  rw [List.append_nil] at hread
  rw [hread, upToClosing]

theorem upToClosing_bracket {closes : Bytes → Bool} {content : Bytes} (h : StaysOpen closes content)
    (hcloses : closes content.reverse = true) (rest : Bytes) :
    upToClosing closes [] (content ++ byte '>' :: rest) = some (content, rest) := by
  rw [@upToClosing_append closes [] content (by simpa using h), List.append_nil, upToClosing,
    hcloses, List.reverse_reverse]
  rfl

/-! ## Constructs as a whole -/

/-- Whether some content is read as one construct with its brackets, and no front of it is. -/
structure Reads (opened : List Bytes) (content : Bytes) (event : Event) (after : List Bytes) :
    Prop where
  whole : ∀ rest, next opened (bracketed content ++ rest) = .ok (some (event, after, rest))
  cut : ∀ front, front <+: content → ∃ fault, next opened (byte '<' :: front) = .error fault

/-- The first two bytes tell the construct, and the first one alone does not tell a wrong one. -/
theorem Construct.of_front {front bytes : Bytes} (h : front <+: bytes) :
    Construct.of front = Construct.of bytes ∨ ∃ fault, Construct.of front = .error fault := by
  obtain ⟨rest, rfl⟩ := h
  match front with
  | [] => exact .inr ⟨_, rfl⟩
  | [b] =>
    by_cases hmark : b = byte '!'
    · subst hmark
      exact .inr ⟨_, rfl⟩
    · left
      simp [Construct.of, hmark]
  | b :: c :: front => exact .inl rfl

theorem Construct.of_append {content : Bytes} {construct : Construct} (rest : Bytes)
    (hof : Construct.of content = .ok construct) :
    Construct.of (content ++ rest) = .ok construct := by
  obtain hsame | ⟨fault, hfault⟩ := Construct.of_front (List.prefix_append content rest)
  · rw [← hsame, hof]
  · rw [hof] at hfault
    cases hfault

theorem reads_of {construct : Construct} {opened after : List Bytes} {content : Bytes}
    {event : Event} (hof : Construct.of content = .ok construct)
    (hopen : StaysOpen construct.closes content)
    (hcloses : construct.closes content.reverse = true)
    (hevent : construct.event opened content = .ok (event, after)) :
    Reads opened content event after where
  whole rest := by
    have hwhole : bracketed content ++ rest = byte '<' :: (content ++ byte '>' :: rest) := by
      simp [bracketed]
    rw [hwhole, next, if_pos (by rfl), readConstruct, Construct.of_append _ hof]
    simp only [bind, Except.bind]
    rw [upToClosing_bracket hopen hcloses]
    simp only [hevent]
    rfl
  cut front hfront := by
    rw [next, if_pos (by rfl), readConstruct]
    obtain hsame | ⟨fault, hfault⟩ := Construct.of_front hfront
    · rw [hsame, hof]
      simp only [bind, Except.bind]
      rw [upToClosing_eq_none (hopen.front hfront)]
      exact ⟨_, rfl⟩
    · rw [hfault]
      exact ⟨fault, rfl⟩

/-! ## Where a mark can stand -/

/-- A front of two parts ends before the first does, or it is the first and a front of the other. -/
theorem prefix_or_eq_append {front head body : Bytes} (h : front <+: head ++ body) :
    (front <+: head ∧ front ≠ head) ∨ ∃ inner, front = head ++ inner ∧ inner <+: body := by
  by_cases hwhole : head <+: front
  · obtain ⟨inner, rfl⟩ := hwhole
    exact .inr ⟨inner, rfl, (List.prefix_append_right_inj head).1 h⟩
  · have hwithin : front <+: head :=
      (List.prefix_or_prefix_of_prefix h (List.prefix_append head body)).resolve_right hwhole
    exact .inl ⟨hwithin, fun heq ↦ hwhole (by rw [heq])⟩

/-- A mark behind as many bytes as another part has stands behind this part. -/
theorem exists_append_of_length_le {front head body mark : Bytes}
    (h : front ++ mark <+: head ++ body) (hlength : head.length ≤ front.length) :
    ∃ inner, front = head ++ inner ∧ inner ++ mark <+: body := by
  have hhead : head <+: front :=
    List.prefix_of_prefix_length_le (List.prefix_append head body)
      ((List.prefix_append front mark).trans h) hlength
  obtain ⟨inner, rfl⟩ := hhead
  rw [List.append_assoc, List.prefix_append_right_inj] at h
  exact ⟨inner, rfl, h⟩

/-- In two parts the first byte of a mark stands in one or the other. -/
theorem mark_append_cases {front head body mark : Bytes} {b : UInt8}
    (h : front ++ b :: mark <+: head ++ body) :
    front ++ [b] <+: head ∨ ∃ inner, front = head ++ inner ∧ inner ++ b :: mark <+: body := by
  by_cases hlength : head.length ≤ front.length
  · exact .inr (exists_append_of_length_le h hlength)
  · have hfirst : front ++ [b] <+: head ++ body :=
      (List.prefix_append (front ++ [b]) mark).trans (by simpa using h)
    exact .inl (List.prefix_of_prefix_length_le hfirst (List.prefix_append head body)
      (by simpa using Nat.succ_le_of_lt (not_le.1 hlength)))

theorem prefix_of_notMem {front head body : Bytes} {b : UInt8}
    (h : front ++ [b] <+: head ++ body) (hb : b ∉ body) : front ++ [b] <+: head := by
  obtain hhead | ⟨inner, -, hbody⟩ := mark_append_cases h
  · exact hhead
  · exact absurd (hbody.subset (by simp)) hb

theorem exists_append_of_notMem {front head body mark : Bytes} {b : UInt8}
    (h : front ++ b :: mark <+: head ++ body) (hb : b ∉ head) :
    ∃ inner, front = head ++ inner ∧ inner ++ b :: mark <+: body :=
  (mark_append_cases h).resolve_left fun hhead ↦ hb (hhead.subset (by simp))

theorem infix_of_prefix_append {front mark bytes : Bytes} (h : front ++ mark <+: bytes) :
    mark <:+: bytes :=
  (List.suffix_append front mark).isInfix.trans h.isInfix

theorem exists_append_of_reverse {mark front : Bytes} (h : mark <+: front.reverse) :
    ∃ inner, front = inner ++ mark.reverse := by
  obtain ⟨rest, hrest⟩ := h
  exact ⟨rest.reverse, by rw [← List.reverse_append, hrest, List.reverse_reverse]⟩

/-! ## Comments and instructions -/

theorem staysOpen_comment {body : Bytes} (h : ¬ascii "-->" <:+: body) :
    StaysOpen Construct.comment.closes (ascii "!--" ++ body ++ ascii "--") := by
  intro front hfront
  have hbody := prefix_of_notMem hfront (by decide)
  by_contra hcloses
  obtain ⟨hlength, hend⟩ : 5 ≤ front.length ∧ ascii "--" <+: front.reverse := by
    simpa [Construct.closes] using hcloses
  obtain ⟨inner, rfl⟩ := exists_append_of_reverse hend
  have hinner : (ascii "!--").length ≤ inner.length := by
    simp [ascii] at hlength ⊢
    omega
  rw [List.append_assoc] at hbody
  obtain ⟨deeper, -, hdeeper⟩ := exists_append_of_length_le hbody hinner
  exact h (infix_of_prefix_append hdeeper)

theorem closes_comment (body : Bytes) :
    Construct.comment.closes (ascii "!--" ++ body ++ ascii "--").reverse = true := by
  have hdashes : (ascii "--").reverse = ascii "--" := by decide
  have hlength : 5 ≤ (ascii "!--" ++ body ++ ascii "--").reverse.length := by simp [ascii]
  have hend : ascii "--" <+: (ascii "!--" ++ body ++ ascii "--").reverse := by
    rw [List.reverse_append, hdashes]
    exact List.prefix_append ..
  rw [Construct.closes, Bool.and_eq_true, decide_eq_true_iff, List.isPrefixOf_iff_prefix]
  exact ⟨hlength, hend⟩

theorem staysOpen_instruction {body : Bytes} (h : ¬ascii "?>" <:+: byte '?' :: body) :
    StaysOpen Construct.instruction.closes (byte '?' :: (body ++ [byte '?'])) := by
  intro front hfront
  have hbody := @prefix_of_notMem front (byte '?' :: body) [byte '?'] _ hfront (by decide)
  by_contra hcloses
  have hlast : front.getLast? = some (byte '?') := by simpa [Construct.closes] using hcloses
  obtain ⟨inner, rfl⟩ := List.getLast?_eq_some_iff.1 hlast
  rw [List.append_assoc] at hbody
  exact h (infix_of_prefix_append hbody)

theorem reads_remark (opened : List Bytes) (remark : Remark) :
    Reads opened remark.content .other opened := by
  cases remark with
  | comment body unclosed =>
    refine @reads_of .comment _ _ _ _ rfl (staysOpen_comment unclosed) (closes_comment body) ?_
    have hbegins : ascii "!--" <+: Remark.content (.comment body unclosed) :=
      (List.prefix_append _ body).trans (List.prefix_append ..)
    rw [Construct.event, if_pos (List.isPrefixOf_iff_prefix.2 hbegins)]
  | instruction body unclosed =>
    have hcloses : Construct.instruction.closes (byte '?' :: (body ++ [byte '?'])).reverse =
        true := by
      simp [Construct.closes]
    refine @reads_of .instruction _ _ _ _ rfl (staysOpen_instruction unclosed) hcloses ?_
    rw [Construct.event, if_pos (by simp [Remark.content])]

/-! ## Character data -/

theorem staysOpen_section {body : Bytes} (h : ¬ascii "]]>" <:+: body) :
    StaysOpen Construct.characterData.closes (ascii "![CDATA[" ++ body ++ ascii "]]") := by
  intro front hfront
  have hbody := prefix_of_notMem hfront (by decide)
  by_contra hcloses
  have hend : ascii "]]" <+: front.reverse := by simpa [Construct.closes] using hcloses
  obtain ⟨inner, rfl⟩ := exists_append_of_reverse hend
  rw [List.append_assoc] at hbody
  obtain ⟨deeper, -, hdeeper⟩ := exists_append_of_notMem hbody (by decide)
  exact h (infix_of_prefix_append hdeeper)

theorem closes_section (body : Bytes) :
    Construct.characterData.closes (ascii "![CDATA[" ++ body ++ ascii "]]").reverse = true := by
  have hmarks : (ascii "]]").reverse = ascii "]]" := by decide
  have hend : ascii "]]" <+: (ascii "![CDATA[" ++ body ++ ascii "]]").reverse := by
    rw [List.reverse_append, hmarks]
    exact List.prefix_append ..
  simpa [Construct.closes] using hend

theorem reads_section (opened : List Bytes) (characters : Section) :
    Reads opened characters.content (.characterData characters.body) opened := by
  refine @reads_of .characterData _ _ _ _ rfl (staysOpen_section characters.unclosed)
    (closes_section characters.body) ?_
  have hbegins : ascii "![CDATA[" <+: characters.content :=
    (List.prefix_append _ characters.body).trans (List.prefix_append ..)
  have hbody : (characters.content.drop 8).dropLast.dropLast = characters.body := by
    have hdrop : characters.content.drop 8 = characters.body ++ [byte ']'] ++ [byte ']'] := by
      rw [Section.content, List.append_assoc, List.append_assoc]
      exact @List.drop_left _ (ascii "![CDATA[") (characters.body ++ ascii "]]")
    rw [hdrop, List.dropLast_concat, List.dropLast_concat]
  rw [Construct.event, if_pos (List.isPrefixOf_iff_prefix.2 hbegins), hbody]

/-! ## Document types -/

theorem staysOpen_doctype (doctype : Doctype) :
    StaysOpen Construct.doctype.closes doctype.content := by
  intro front hfront
  obtain ⟨inner, rfl, hinner⟩ := exists_append_of_notMem hfront (by decide)
  have hlt := doctype.nested inner hinner
  have hkeyword : (ascii "!DOCTYPE").count (byte '<') = 0 ∧
      (ascii "!DOCTYPE").count (byte '>') = 0 := by decide
  simp only [Construct.closes, List.count_reverse, List.count_append, hkeyword.1, hkeyword.2]
  exact beq_eq_false_iff_ne.2 (by omega)

theorem closes_doctype (doctype : Doctype) :
    Construct.doctype.closes doctype.content.reverse = true := by
  have hkeyword : (ascii "!DOCTYPE").count (byte '<') = (ascii "!DOCTYPE").count (byte '>') := by
    decide
  simp [Construct.closes, Doctype.content, hkeyword, doctype.balanced]

theorem reads_doctype (opened : List Bytes) (doctype : Doctype) :
    Reads opened doctype.content .other opened := by
  have hkeyword : ascii "!doctype" <+: doctype.content.map lowercase := by
    rw [Doctype.content, List.map_append]
    exact List.prefix_append ((ascii "!DOCTYPE").map lowercase) _
  have hnamed : (doctype.content.drop 8).all isSpace = false := by
    obtain ⟨b, hb, hname⟩ := doctype.named
    have hdrop : doctype.content.drop 8 = doctype.body :=
      @List.drop_left _ (ascii "!DOCTYPE") doctype.body
    rw [hdrop]
    exact List.all_eq_false.2 ⟨b, hb, by simp [hname]⟩
  refine @reads_of .doctype _ _ _ _ rfl (staysOpen_doctype doctype) (closes_doctype doctype) ?_
  rw [Construct.event, if_pos (List.isPrefixOf_iff_prefix.2 hkeyword), hnamed]
  rfl

end LocalizedAccessors.Markup
