import LocalizedAccessors.Proofs.Generation.Agreement

/-!
# The comment at the head of a file

Everything above the import of a generated file ought to be a comment, whatever the message is. The
message is cut into lines at its line feeds, and each of them is written behind a comment mark. But
a line of Swift also ends at a carriage return that no line feed follows, and what stands behind it
in the message begins a line without a mark. So the head is a comment if and only if none of these
lines has anything in it, unless the message itself has the mark there.
-/

namespace LocalizedAccessors

/-! ## Lines of Swift -/

namespace Swift

def isLineBreak (c : Char) : Bool := c = '\n' ∨ c = '\r'

/-- The lines of Swift source. A line ends at a line feed, at a carriage return or at both. -/
def lines : List Char → List (List Char)
  | [] => [[]]
  | '\r' :: '\n' :: rest => [] :: lines rest
  | c :: rest => if isLineBreak c then [] :: lines rest else (lines rest).modifyHead (c :: ·)

example : lines "a\rb\r\n\nc".toList = [['a'], ['b'], [], ['c']] := by decide

/-- What stands in front of the first line break. -/
def firstLine (cs : List Char) : List Char := cs.takeWhile (!isLineBreak ·)

/-- Whether a line has nothing in it but a comment. -/
def Comment (line : List Char) : Prop := line = [] ∨ ['/', '/'] <+: line

instance (line : List Char) : Decidable (Comment line) := inferInstanceAs (Decidable (_ ∨ _))

/-- Whether every line that begins behind a character of some kind is a comment. -/
def CommentBehind (ends : Char → Bool) (cs : List Char) : Prop :=
  ∀ c rest, c :: rest <:+ cs → ends c = true → Comment (firstLine rest)

variable {ends : Char → Bool} {c d : Char} {cs front rest : List Char}

theorem comment_nil : Comment [] := .inl rfl

theorem firstLine_cons_of_break (h : isLineBreak c = true) (rest : List Char) :
    firstLine (c :: rest) = [] := by
  simp [firstLine, h]

theorem firstLine_cons_of_not_break (h : isLineBreak c = false) (rest : List Char) :
    firstLine (c :: rest) = c :: firstLine rest := by
  simp [firstLine, h]

theorem firstLine_append_cons (h : isLineBreak d = true) (front rest : List Char) :
    firstLine (front ++ d :: rest) = firstLine front := by
  induction front with
  | nil => exact firstLine_cons_of_break h rest
  | cons c front ih =>
    rw [List.cons_append]
    by_cases hc : isLineBreak c = true
    · rw [firstLine_cons_of_break hc, firstLine_cons_of_break hc]
    · rw [Bool.not_eq_true] at hc
      rw [firstLine_cons_of_not_break hc, firstLine_cons_of_not_break hc, ih]

theorem commentBehind_nil (ends : Char → Bool) : CommentBehind ends [] :=
  fun _ _ h ↦ absurd (List.suffix_nil.1 h) (List.cons_ne_nil _ _)

theorem commentBehind_cons :
    CommentBehind ends (c :: rest) ↔
      (ends c = true → Comment (firstLine rest)) ∧ CommentBehind ends rest := by
  constructor
  · intro h
    refine ⟨h c rest (List.suffix_refl _), fun d back hback ↦ h d back ?_⟩
    exact List.suffix_cons_iff.2 (.inr hback)
  · rintro ⟨hfirst, hrest⟩ d back hback hd
    rcases List.suffix_cons_iff.1 hback with heq | hback
    · obtain ⟨rfl, rfl⟩ := List.cons.inj heq
      exact hfirst hd
    · exact hrest d back hback hd

instance decidableCommentBehind (ends : Char → Bool) :
    (cs : List Char) → Decidable (CommentBehind ends cs)
  | [] => .isTrue (commentBehind_nil ends)
  | _ :: rest =>
    have := decidableCommentBehind ends rest
    decidable_of_iff _ commentBehind_cons.symm

/-- A line break keeps the lines in front of it apart from those behind it. -/
theorem commentBehind_append_cons (h : isLineBreak d = true) :
    CommentBehind ends (front ++ d :: rest) ↔
      CommentBehind ends front ∧ CommentBehind ends (d :: rest) := by
  induction front with
  | nil => exact (and_iff_right (commentBehind_nil ends)).symm
  | cons c front ih =>
    rw [List.cons_append, commentBehind_cons, commentBehind_cons, firstLine_append_cons h, ih,
      and_assoc]

/-- The first line and the others, which all begin behind a line break. -/
theorem exists_lines_eq (cs : List Char) : ∃ others, lines cs = firstLine cs :: others ∧
    ((∀ line ∈ others, Comment line) ↔ CommentBehind isLineBreak cs) := by
  induction cs using lines.induct with
  | case1 => exact ⟨[], rfl, by simp [commentBehind_nil]⟩
  | case2 rest ih =>
    obtain ⟨others, hlines, hothers⟩ := ih
    refine ⟨lines rest, ?_, ?_⟩
    · rw [lines, firstLine_cons_of_break rfl]
    · -- A line also begins between the two characters, but it is empty.
      rw [hlines, List.forall_mem_cons, hothers, commentBehind_cons, commentBehind_cons,
        firstLine_cons_of_break rfl]
      simp [isLineBreak, comment_nil]
  | case3 c rest hreturn hbreak ih =>
    obtain ⟨others, hlines, hothers⟩ := ih
    refine ⟨lines rest, ?_, ?_⟩
    · rw [lines, if_pos hbreak, firstLine_cons_of_break hbreak]
      exact hreturn
    · rw [hlines, List.forall_mem_cons, hothers, commentBehind_cons]
      simp [hbreak]
  | case4 c rest hreturn hbreak ih =>
    obtain ⟨others, hlines, hothers⟩ := ih
    refine ⟨others, ?_, ?_⟩
    · rw [lines, if_neg hbreak, hlines, firstLine_cons_of_not_break (Bool.not_eq_true _ ▸ hbreak)]
      · rfl
      · exact hreturn
    · rw [hothers, commentBehind_cons]
      simp [hbreak]

/-- Whether all lines of some characters are comments. -/
def Comments (cs : List Char) : Prop := ∀ line ∈ lines cs, Comment line

instance (cs : List Char) : Decidable (Comments cs) := List.decidableBAll _ (lines cs)

theorem comments_iff :
    Comments cs ↔ Comment (firstLine cs) ∧ CommentBehind isLineBreak cs := by
  obtain ⟨others, hlines, hothers⟩ := exists_lines_eq cs
  rw [Comments, hlines, List.forall_mem_cons, hothers]

theorem comments_nil : Comments [] := comments_iff.2 ⟨comment_nil, commentBehind_nil _⟩

theorem comments_append_cons (h : isLineBreak d = true) :
    Comments (front ++ d :: rest) ↔ Comments front ∧ Comments rest := by
  rw [comments_iff, comments_iff, comments_iff, firstLine_append_cons h,
    commentBehind_append_cons h, commentBehind_cons]
  simp [h, and_assoc]

theorem comments_join {texts : List String} :
    Comments (String.join (texts.map (· ++ "\n"))).toList ↔
      ∀ text ∈ texts, Comments text.toList := by
  induction texts with
  | nil => simp [comments_nil]
  | cons text texts ih =>
    have hcons : (String.join ((text :: texts).map (· ++ "\n"))).toList =
        text.toList ++ '\n' :: (String.join (texts.map (· ++ "\n"))).toList := by
      simp [String.toList_join]
    rw [hcons, comments_append_cons rfl, ih, List.forall_mem_cons]

/-! ## The lines of the message -/

variable {others : Char → Bool}

theorem commentBehind_congr (h : ∀ c ∈ cs, ends c = others c) :
    CommentBehind ends cs ↔ CommentBehind others cs :=
  forall₃_congr fun c _ hback ↦ by rw [h c (hback.subset List.mem_cons_self)]

theorem commentBehind_withoutReturn (ends : Char → Bool) (line : List Char) :
    CommentBehind ends (Text.withoutReturn line) ↔ CommentBehind ends line := by
  unfold Text.withoutReturn
  split
  · next hlast =>
    obtain ⟨front, rfl⟩ := List.getLast?_eq_some_iff.1 hlast
    have hreturn : CommentBehind ends ['\r'] :=
      commentBehind_cons.2 ⟨fun _ ↦ comment_nil, commentBehind_nil ends⟩
    rw [List.dropLast_concat, commentBehind_append_cons rfl, and_iff_left hreturn]
  · rfl

theorem commentBehind_intercalate (ends : Char → Bool) (h : ends '\n' = false)
    (parts : List (List Char)) :
    CommentBehind ends (['\n'].intercalate parts) ↔ ∀ part ∈ parts, CommentBehind ends part := by
  induction parts with
  | nil => simp [commentBehind_nil]
  | cons part parts ih =>
    cases parts with
    | nil => simp
    | cons next parts =>
      rw [List.intercalate_cons_cons, List.append_assoc, List.singleton_append,
        commentBehind_append_cons rfl, commentBehind_cons, ih, List.forall_mem_cons]
      simp [h]

/-- What begins behind a carriage return in a line of the message begins behind it in the message.
Behind those that are left out of the lines there is only a line feed. -/
theorem commentBehind_lines (text : String) :
    (∀ line ∈ Text.lines text, CommentBehind isLineBreak line.toList) ↔
      CommentBehind (· = '\r') text.toList := by
  have hparts : ∀ part ∈ text.toList.splitOn '\n',
      (CommentBehind isLineBreak part ↔ CommentBehind (· = '\r') part) := by
    intro part hpart
    apply commentBehind_congr
    intro c hc
    have hfeed : c ≠ '\n' := fun h ↦ (Text.of_mem_splitOn hpart).1 (h ▸ hc)
    simp [isLineBreak, hfeed]
  have hwhole := commentBehind_intercalate (· = '\r') rfl (text.toList.splitOn '\n')
  rw [List.intercalate_splitOn] at hwhole
  rw [hwhole, ← forall₂_congr hparts]
  have hne := List.splitOn_ne_nil '\n' text.toList
  obtain ⟨init, last, hsplit⟩ := List.eq_nil_or_concat _ |>.resolve_left hne
  have hlast : (∀ part ∈ ((some last).filter (· ≠ [])).toList, CommentBehind isLineBreak part) ↔
      CommentBehind isLineBreak last := by
    by_cases hnil : last = []
    · simp [hnil, commentBehind_nil]
    · simp [hnil]
  simp only [Text.lines, hsplit, List.concat_eq_append, List.dropLast_concat,
    List.getLast?_concat, List.forall_mem_map, List.forall_mem_append, String.toList_ofList,
    commentBehind_withoutReturn, List.forall_mem_singleton, hlast]

theorem comments_mark (cs : List Char) :
    Comments ('/' :: '/' :: ' ' :: cs) ↔ CommentBehind isLineBreak cs := by
  have hslash (rest : List Char) : firstLine ('/' :: rest) = '/' :: firstLine rest :=
    firstLine_cons_of_not_break rfl rest
  have hmark : Comment (firstLine ('/' :: '/' :: ' ' :: cs)) :=
    .inr ⟨firstLine (' ' :: cs), by rw [hslash, hslash]; rfl⟩
  rw [comments_iff, and_iff_right hmark, commentBehind_cons, commentBehind_cons,
    commentBehind_cons]
  simp [isLineBreak]

end Swift

/-! ## The head of a file -/

namespace Heading

open Swift

/-- A line of the message as it is written in the head of a file. -/
def noteLine (line : String) : String := if line = "" then "//" else "// " ++ line

/-- What the message adds to the head of a file. -/
def note (message : Option String) : List String :=
  match message.filter fun text ↦ Text.trim text.toList ≠ [] with
  | some text => "//" :: (Text.lines text).map noteLine
  | none => []

/-- The lines above the import. -/
def headLines (message : Option String) : List String :=
  ["// This file is automatically generated by stringsgen.",
    "// Do not edit it manually, as your changes will be overwritten."] ++ note message ++ [""]

theorem fileHeader_eq (message : Option String) :
    fileHeader message =
      String.join ((headLines message).map (· ++ "\n")) ++ "import Foundation\n\n" := by
  have hlines : fileHeader message =
      String.join ((headLines message ++ ["import Foundation", ""]).map (· ++ "\n")) := by
    simp only [headLines, List.append_assoc, List.singleton_append]
    rfl
  rw [hlines, List.map_append, String.join_append]
  rfl

theorem comments_noteLine (line : String) :
    Comments (noteLine line).toList ↔ CommentBehind isLineBreak line.toList := by
  unfold noteLine
  split
  · next hempty =>
    rw [hempty]
    exact iff_of_true (by decide) (commentBehind_nil _)
  · rw [String.toList_append]
    exact comments_mark line.toList

theorem comments_note (message : Option String) :
    (∀ line ∈ note message, Comments line.toList) ↔
      ∀ text ∈ message, Text.trim text.toList ≠ [] →
        CommentBehind (· = '\r') text.toList := by
  have hmark : Comments "//".toList := by decide
  cases message with
  | none => simp [note]
  | some text =>
    by_cases hblank : Text.trim text.toList = []
    · have hnote : note (some text) = [] := by
        rw [note, Option.filter_some_neg (by simpa using hblank)]
      simp [hnote, hblank]
    · simp only [note, Option.filter_some, ne_eq, hblank, not_false_eq_true, decide_true, if_true,
        List.forall_mem_cons, hmark, true_and, List.forall_mem_map, comments_noteLine,
        commentBehind_lines]
      simp [hblank]

theorem comments_headLines (message : Option String) :
    Comments (String.join ((headLines message).map (· ++ "\n"))).toList ↔
      ∀ text ∈ message, Text.trim text.toList ≠ [] →
        CommentBehind (· = '\r') text.toList := by
  have hopening : ∀ line ∈ ["// This file is automatically generated by stringsgen.",
      "// Do not edit it manually, as your changes will be overwritten."],
      Comments line.toList := by decide +kernel
  have hempty : ∀ line ∈ [""], Comments line.toList := by decide
  rw [comments_join, headLines, List.forall_mem_append, List.forall_mem_append,
    and_iff_right hopening, and_iff_left hempty, comments_note]

/-- Every line above the import of a generated file is empty or a comment if and only if so is every
line that begins behind a carriage return of the message. A blank message does not matter. -/
theorem comments_generate {catalog : Catalog} {options : GenerationOptions} {generated : Generated}
    (h : (generate catalog options).value = .ok generated) :
    ∃ head, generated.contents =
        head ++ ("import Foundation\n\n" ++ generated.tree.render options.style) ∧
      (Comments head.toList ↔
        ∀ text ∈ options.message, Text.trim text.toList ≠ [] →
          CommentBehind (· = '\r') text.toList) := by
  rw [value_generate] at h
  split at h
  · obtain rfl := Except.ok.inj h
    refine ⟨_, ?_, comments_headLines options.message⟩
    rw [← String.append_assoc, ← fileHeader_eq]
  · simp at h

/-- A message with line breaks of all kinds, and comment marks behind bare carriage returns. -/
def marked : GenerationOptions := { message := some "a\r\n\n//b\r// c\r" }

theorem comments_generate_marked : ∃ generated,
    (generate (.empty .overwrite) marked).value = .ok generated ∧
    ∃ head, generated.contents =
        head ++ ("import Foundation\n\n" ++ generated.tree.render marked.style) ∧
      Comments head.toList := by
  have hgenerate : ∃ generated, (generate (.empty .overwrite) marked).value = .ok generated := by
    rw [value_generate]
    exact ⟨_, rfl⟩
  obtain ⟨generated, h⟩ := hgenerate
  obtain ⟨head, hcontents, hcomments⟩ := comments_generate h
  exact ⟨generated, h, head, hcontents, hcomments.2 (by decide)⟩

/-- What follows a carriage return in the message is outside the comment. -/
theorem not_comments_generate : ¬∀ (catalog : Catalog) (options : GenerationOptions)
    (generated : Generated), (generate catalog options).value = .ok generated →
    ∃ head, generated.contents =
        head ++ ("import Foundation\n\n" ++ generated.tree.render options.style) ∧
      Comments head.toList := by
  intro h
  have hgenerate := value_generate (.empty .overwrite) { message := some "a\rb" }
  obtain ⟨head, hcontents, hcomments⟩ := h _ _ _ hgenerate
  rw [fileHeader_eq, String.append_assoc, String.append_left_inj] at hcontents
  rw [← hcontents, comments_headLines] at hcomments
  exact absurd hcomments (by decide)

end Heading

end LocalizedAccessors
