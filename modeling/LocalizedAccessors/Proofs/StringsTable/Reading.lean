import LocalizedAccessors.Proofs.StringsTable.Grammar

/-!
# Reading what is written

Every reader takes what is written for its part of the grammar, gives what that part means, and
leaves the rest untouched. So a whole table is read as the pairs that it lists.
-/

namespace LocalizedAccessors.StringsTable

/-! ## Gaps -/

theorem afterLine_append {body : List Char} (h : '\n' ∉ body) (rest : List Char) :
    afterLine (body ++ '\n' :: rest) = rest := by
  induction body with
  | nil => rfl
  | cons c body ih =>
    obtain ⟨hc, hbody⟩ := not_or.1 (mt List.mem_cons.2 h)
    have hne : (c == '\n') = false := by simpa using Ne.symm hc
    rw [List.cons_append, afterLine, hne]
    exact ih hbody

theorem afterBlock_append {body : List Char} (h : ¬['*', '/'] <:+: body) (rest : List Char) :
    afterBlock (body ++ '*' :: '/' :: rest) = rest := by
  induction body with
  | nil => rfl
  | cons c body ih =>
    have hbody : ¬['*', '/'] <:+: body := fun hinside ↦
      h (hinside.trans (List.suffix_cons ..).isInfix)
    have hstart : ∀ tail, c = '*' → body ++ '*' :: '/' :: rest = '/' :: tail → False := by
      intro tail hstar htail
      subst hstar
      cases body with
      | nil => simp at htail
      | cons d body =>
        obtain ⟨rfl, -⟩ := List.cons.inj htail
        exact h ⟨[], body, rfl⟩
    rw [List.cons_append, afterBlock.eq_3 _ _ hstart]
    exact ih hbody

/-- Blanks and comments begin with a blank or with a slash and one of two characters. -/
def Stops (cs : List Char) : Prop :=
  (∀ c ∈ cs.head?, Text.isBlank c = false) ∧ ¬['/', '/'] <+: cs ∧ ¬['/', '*'] <+: cs

theorem skipTrivia_of_stops {cs : List Char} (h : Stops cs) : skipTrivia cs = cs := by
  obtain ⟨hblank, hline, hblock⟩ := h
  fun_cases skipTrivia cs with
  | case1 => rfl
  | case2 rest => exact absurd ⟨rest, rfl⟩ hline
  | case3 rest => exact absurd ⟨rest, rfl⟩ hblock
  | case4 c rest _ _ hc => exact absurd hc (by simp [hblank c rfl])
  | case5 => rfl

theorem skipTrivia_trivium (trivium : Trivium) (rest : List Char) :
    skipTrivia (trivium.written ++ rest) = skipTrivia rest := by
  cases trivium with
  | blank c hc =>
    have hslash : c ≠ '/' := by
      rintro rfl
      exact absurd hc (by decide)
    rw [Trivium.written, List.singleton_append, skipTrivia]
    · rw [if_pos hc]
    · exact fun _ heq ↦ absurd heq hslash
    · exact fun _ heq ↦ absurd heq hslash
  | line body hbody =>
    simp only [Trivium.written, List.cons_append, List.append_assoc, List.nil_append]
    rw [skipTrivia, afterLine_append hbody]
  | block body hbody =>
    simp only [Trivium.written, List.cons_append, List.append_assoc, List.nil_append]
    rw [skipTrivia, afterBlock_append hbody]

theorem skipTrivia_gap (gap : Gap) (rest : List Char) :
    skipTrivia (gap.written ++ rest) = skipTrivia rest := by
  induction gap with
  | nil => rfl
  | cons first others ih =>
    rw [Gap.written, List.flatMap_cons, List.append_assoc, skipTrivia_trivium]
    exact ih

/-! ## Tokens -/

theorem digitValue?_written (digit : HexDigit) :
    Text.digitValue? 16 digit.written = some digit.value := by
  obtain ⟨value, upper⟩ := digit
  revert value upper
  decide

theorem numberFrom_written (front : Nat) (digits : List HexDigit) :
    Text.numberFrom 16 front (digits.map HexDigit.written) = HexDigit.number front digits := by
  simp [Text.numberFrom, HexDigit.number, List.foldl_map, digitValue?_written, Nat.mul_comm]

theorem unicodeEscape_written (code : CharacterCode) :
    unicodeEscape (code.digits.map HexDigit.written) = [code.character] := by
  have hne : code.digits ≠ [] := List.ne_nil_of_length_pos (by simp [code.length_eq])
  have hvalid : code.character.toNat.isValidChar := code.character.valid
  simp only [unicodeEscape, numberFrom_written, code.number_eq, Char.ofNat_toNat]
  rw [if_pos ⟨by simpa using hne, hvalid⟩]

theorem escapeDigits_append (code : CharacterCode) (rest : List Char) :
    escapeDigits (code.digits.map HexDigit.written ++ rest) = code.digits.map HexDigit.written := by
  have hhex : ∀ c ∈ code.digits.map HexDigit.written, Text.isHexDigit c = true := fun c hc ↦ by
    obtain ⟨digit, -, rfl⟩ := List.mem_map.1 hc
    simp [Text.isHexDigit, digitValue?_written]
  have hlength : (code.digits.map HexDigit.written).length = 4 := by simp [code.length_eq]
  rw [escapeDigits, ← hlength, List.take_left, ← List.append_nil (code.digits.map _),
    List.takeWhile_append_of_pos hhex, List.takeWhile_nil]

theorem quoted_escape (c : Char) (rest : List Char) (h : c ≠ 'U' ∧ c ≠ 'u') :
    quoted ('\\' :: c :: rest) = preceded [simpleEscape c] (quoted rest) := by
  rw [quoted, if_neg (by simp [h])]

theorem quoted_glyph (glyph : Glyph) (rest : List Char) :
    quoted (glyph.written ++ rest) = preceded [glyph.meaning] (quoted rest) := by
  cases glyph with
  | raw c hc =>
    rw [Glyph.written, List.singleton_append, quoted]
    · rfl
    · exact fun heq ↦ absurd heq hc.1
    · exact fun heq ↦ absurd heq hc.2
    · exact fun _ _ heq ↦ absurd heq hc.2
  | lineFeed => exact quoted_escape 'n' rest (by decide)
  | carriageReturn => exact quoted_escape 'r' rest (by decide)
  | tab => exact quoted_escape 't' rest (by decide)
  | code letter hletter number =>
    have hdigits := escapeDigits_append number rest
    rw [Glyph.written, List.cons_append, List.cons_append, quoted,
      if_pos (by simpa using hletter), hdigits, unicodeEscape_written, List.drop_left]
    rfl
  | other c hc =>
    simp only [List.mem_cons, List.not_mem_nil, or_false, not_or] at hc
    have hmeaning : simpleEscape c = c := by
      unfold simpleEscape
      split <;> simp_all
    rw [Glyph.written, List.cons_append, List.singleton_append, quoted_escape c rest hc.2.2.2,
      hmeaning]
    rfl

theorem quoted_glyphs (glyphs : List Glyph) (rest : List Char) :
    quoted (glyphs.flatMap Glyph.written ++ '\"' :: rest) = (glyphs.map Glyph.meaning, rest) := by
  induction glyphs with
  | nil => rw [List.flatMap_nil, List.nil_append, quoted, List.map_nil]
  | cons glyph others ih =>
    rw [List.flatMap_cons, List.append_assoc, quoted_glyph, ih]
    rfl

theorem not_isPrefix_append {word next : List Char} {a b : Char} (hne : word ≠ [])
    (h : ¬[a, b] <+: word) (hnext : ∀ c ∈ next.head?, c ≠ b) : ¬[a, b] <+: word ++ next := by
  obtain ⟨c, rest, rfl⟩ := List.exists_cons_of_ne_nil hne
  intro hbegins
  cases rest with
  | nil =>
    obtain ⟨-, hb⟩ := List.cons_prefix_cons.1 hbegins
    obtain ⟨tail, rfl⟩ := hb
    exact hnext b rfl rfl
  | cons d rest =>
    obtain ⟨rfl, hb⟩ := List.cons_prefix_cons.1 hbegins
    obtain ⟨rfl, -⟩ := List.cons_prefix_cons.1 hb
    exact h ⟨rest, rfl⟩

theorem Word.endsWord_eq_false (word : Word) {c : Char} (h : c ∈ word.chars) :
    endsWord c = false := by
  obtain ⟨hblank, hequals, hsemicolon⟩ := word.inside c h
  simp [endsWord, hblank, hequals, hsemicolon]

/-- The first character of a word is no blank, no quote and no delimiter. -/
theorem Word.exists_cons (word : Word) : ∃ c rest, word.chars = c :: rest ∧
    Text.isBlank c = false ∧ c ≠ '\"' ∧ c ≠ '=' ∧ c ≠ ';' := by
  obtain ⟨c, rest, hchars⟩ := List.exists_cons_of_ne_nil word.ne_nil
  obtain ⟨hblank, hdelimiters⟩ := word.inside c (by simp [hchars])
  have hquote : c ≠ '\"' := fun hc ↦ word.opening ['\"'] (by simp) (by simp [hchars, hc])
  exact ⟨c, rest, hchars, hblank, hquote, hdelimiters⟩

theorem ne_of_endsWord {c d : Char} (hc : endsWord c = true) (hd : endsWord d = false) : c ≠ d := by
  intro heq
  rw [heq, hd] at hc
  exact Bool.noConfusion hc

/-- Whether a token ends before some characters. A quoted string ends before any. -/
def Token.EndsBefore : Token → List Char → Prop
  | quoted _, _ => True
  | bare _, next => ∀ c ∈ next.head?, endsWord c = true

variable {token : Token} {next : List Char}

theorem stops_token (h : token.EndsBefore next) : Stops (token.written ++ next) := by
  cases token with
  | quoted glyphs =>
    have hquote : Text.isBlank '\"' = false := by decide
    simp [Stops, Token.written, hquote]
  | bare word =>
    refine ⟨?_, ?_, ?_⟩
    · obtain ⟨c, rest, hchars, hblank, -⟩ := word.exists_cons
      simpa [Token.written, hchars] using hblank
    · apply not_isPrefix_append word.ne_nil (word.opening _ (by simp))
      exact fun c hc ↦ ne_of_endsWord (h c hc) (by decide)
    · apply not_isPrefix_append word.ne_nil (word.opening _ (by simp))
      exact fun c hc ↦ ne_of_endsWord (h c hc) (by decide)

theorem token?_cons {c : Char} (hquote : c ≠ '\"') (hdelimiters : c ≠ '=' ∧ c ≠ ';')
    (rest : List Char) :
    token? (c :: rest) =
      some ((c :: rest).takeWhile (!endsWord ·), (c :: rest).dropWhile (!endsWord ·)) := by
  rw [token?]
  · rw [if_neg (by simp [hdelimiters])]
  · exact fun heq ↦ absurd heq hquote

theorem span_endsWord (h : ∀ c ∈ next.head?, endsWord c = true) :
    next.takeWhile (!endsWord ·) = [] ∧ next.dropWhile (!endsWord ·) = next := by
  cases next with
  | nil => exact ⟨rfl, rfl⟩
  | cons c next => simp [h c rfl]

theorem token?_written (h : token.EndsBefore next) :
    token? (token.written ++ next) = some (token.meaning, next) := by
  cases token with
  | quoted glyphs =>
    rw [Token.written, List.cons_append, List.append_assoc, token?, List.singleton_append,
      quoted_glyphs]
    rfl
  | bare word =>
    obtain ⟨c, rest, hchars, -, hquote, hdelimiters⟩ := word.exists_cons
    obtain ⟨htake, hdrop⟩ := span_endsWord h
    have hinside : ∀ d ∈ word.chars, (!endsWord d) = true := by
      intro d hd
      rw [word.endsWord_eq_false hd, Bool.not_false]
    calc
      token? (word.chars ++ next) = some ((word.chars ++ next).takeWhile (!endsWord ·),
          (word.chars ++ next).dropWhile (!endsWord ·)) := by
        rw [hchars, List.cons_append, token?_cons hquote hdelimiters]
      _ = some (word.chars ++ next.takeWhile (!endsWord ·), next.dropWhile (!endsWord ·)) := by
        rw [List.takeWhile_append_of_pos hinside, List.dropWhile_append_of_pos hinside]
      _ = some (word.chars, next) := by rw [htake, hdrop, List.append_nil]

theorem endsBefore_gap {gap : Gap} (h : token.SetApart gap) {delimiter : Char}
    (hdelimiter : endsWord delimiter = true) (rest : List Char) :
    token.EndsBefore (gap.written ++ delimiter :: rest) := by
  cases token with
  | quoted glyphs => trivial
  | bare word =>
    intro c hc
    cases gap with
    | nil =>
      obtain rfl : delimiter = c := Option.some.inj hc
      exact hdelimiter
    | cons first others =>
      obtain ⟨d, hd, rfl⟩ := h first rfl
      obtain rfl : d = c := Option.some.inj hc
      simp [endsWord, hd]

/-- A token is reached through the gap before it, and what follows it is reached through the gap
after it. -/
theorem read_token (before : Gap) {after : Gap} (h : token.SetApart after) {delimiter : Char}
    (hdelimiter : endsWord delimiter = true) (rest : List Char) :
    skipTrivia (before.written ++ (token.written ++ (after.written ++ delimiter :: rest))) =
        token.written ++ (after.written ++ delimiter :: rest) ∧
      token? (token.written ++ (after.written ++ delimiter :: rest)) =
        some (token.meaning, after.written ++ delimiter :: rest) := by
  have hends := endsBefore_gap h hdelimiter rest
  exact ⟨(skipTrivia_gap _ _).trans (skipTrivia_of_stops (stops_token hends)),
    token?_written hends⟩

/-! ## Statements -/

theorem skipTrivia_gap_delimiter (gap : Gap) {delimiter : Char}
    (h : delimiter = '=' ∨ delimiter = ';') (rest : List Char) :
    skipTrivia (gap.written ++ delimiter :: rest) = delimiter :: rest := by
  have hsolid : Text.isBlank delimiter = false ∧ delimiter ≠ '/' := by
    rcases h with rfl | rfl <;> decide
  have hstops : Stops (delimiter :: rest) := by
    simp [Stops, List.cons_prefix_cons, hsolid.1, Ne.symm hsolid.2]
  exact (skipTrivia_gap gap _).trans (skipTrivia_of_stops hstops)

theorem Token.written_append_ne_nil (token : Token) (rest : List Char) :
    token.written ++ rest ≠ [] := by
  cases token with
  | quoted glyphs => simp [Token.written]
  | bare word => simp [Token.written, word.ne_nil]

theorem valueOf_assignment (assignment : Assignment) (key rest : List Char) :
    valueOf key (assignment.beforeValue.written ++ (assignment.value.written ++
        (assignment.afterValue.written ++ ';' :: rest))) =
      (.pair key assignment.line, rest) := by
  obtain ⟨hskip, htoken⟩ := read_token assignment.beforeValue assignment.value_setApart
    (by decide : endsWord ';' = true) rest
  have hline : assignment.value.meaning.filter (!isLineBreak ·) = assignment.line :=
    List.filter_congr fun c _ ↦ Bool.eq_iff_iff.2 (by simp [isLineBreak])
  simp only [valueOf, hskip, htoken, skipTrivia_gap_delimiter _ (.inr rfl), afterSemicolon, hline]

theorem nextStatement?_assignment (assignment : Assignment) (rest : List Char) :
    nextStatement? (assignment.written ++ rest) =
      some (.pair assignment.key.meaning assignment.line, rest) := by
  let behind := assignment.beforeValue.written ++ (assignment.value.written ++
    (assignment.afterValue.written ++ ';' :: rest))
  have hwritten : assignment.written ++ rest =
      assignment.leading.written ++ (assignment.key.written ++
        (assignment.afterKey.written ++ '=' :: behind)) := by
    simp [Assignment.written, behind]
  obtain ⟨hskip, htoken⟩ := read_token assignment.leading assignment.key_setApart
    (by decide : endsWord '=' = true) behind
  obtain ⟨c, begun, hbegun⟩ := List.exists_cons_of_ne_nil <|
    assignment.key.written_append_ne_nil (assignment.afterKey.written ++ '=' :: behind)
  rw [hbegun] at hskip htoken
  rw [hwritten, hbegun]
  simp only [nextStatement?, hskip, htoken, skipTrivia_gap_delimiter _ (.inl rfl), behind,
    valueOf_assignment]

theorem nextStatement?_gap (gap : Gap) : nextStatement? gap.written = none := by
  have hend : skipTrivia gap.written = [] := by
    calc
      skipTrivia gap.written = skipTrivia (gap.written ++ []) := by rw [List.append_nil]
      _ = skipTrivia [] := skipTrivia_gap gap []
      _ = [] := by rw [skipTrivia]
  exact nextStatement?_eq_none_iff.2 hend

/-- The statements of a text, one at a time. -/
theorem statements_eq (cs : List Char) :
    statements cs = match nextStatement? cs with
      | none => []
      | some (statement, rest) => statement :: statements rest := by
  rw [statements]
  split <;> simp_all

theorem statements_written (assignments : List Assignment) (trailing : Gap) :
    statements (assignments.flatMap Assignment.written ++ trailing.written) =
      assignments.map fun assignment ↦ .pair assignment.key.meaning assignment.line := by
  induction assignments with
  | nil =>
    rw [List.flatMap_nil, List.nil_append, statements_eq, nextStatement?_gap]
    rfl
  | cons first others ih =>
    rw [List.flatMap_cons, List.append_assoc, statements_eq, nextStatement?_assignment]
    exact congrArg (_ :: ·) ih

/-- The pairs that are read from a document are the pairs that it lists. -/
theorem pairs_written (document : Document) :
    pairs (String.ofList document.written) = document.pairs := by
  have hmarks : document.written.dropWhile (· == '\ufeff') =
      document.assignments.flatMap Assignment.written ++ document.trailing.written := by
    rw [Document.written, List.dropWhile_append_of_pos (by simp)]
    cases hcs : document.assignments.flatMap Assignment.written ++ document.trailing.written with
    | nil => rfl
    | cons c rest =>
      have hc : c ≠ '\ufeff' := fun heq ↦ document.unmarked (by simp [hcs, heq])
      simp [hc]
  rw [pairs, String.toList_ofList, hmarks, statements_written, List.filterMap_map]
  exact congrFun List.filterMap_eq_map _

end LocalizedAccessors.StringsTable
