import LocalizedAccessors.Proofs.StringsTable.Reading
import LocalizedAccessors.Proofs.Text.Pieces
import Mathlib.Data.List.TakeWhile

/-!
# Lines that are no statements

A table whose rows are interrupted by a line of plain words. Such a line is found to be malformed
behind its first word, where an equals sign should stand. If there is a second word, the rest of the
line is passed over and nothing else. But blanks are skipped before the equals sign is looked for,
and a line break is one of them: behind the only word of a line reading has come to the next row,
and what is passed over then is this row, or as much of it as stands in front of a semicolon or a
line break.
-/

namespace LocalizedAccessors.StringsTable

open Text (isBlank)

variable {cs rest others : List Char}

/-! ## What statements depend on -/

/-- Nothing but what follows the blanks and comments in front counts. -/
theorem statements_of_skipTrivia (h : skipTrivia cs = skipTrivia others) :
    statements cs = statements others := by
  have hnext : nextStatement? cs = nextStatement? others := by simp only [nextStatement?, h]
  rw [statements_eq cs, hnext, ← statements_eq]

theorem statements_nil : statements [] = [] := by
  rw [statements_eq, nextStatement?, skipTrivia]

theorem skipTrivia_blanks {blanks : List Char} (h : ∀ c ∈ blanks, isBlank c = true)
    (cs : List Char) : skipTrivia (blanks ++ cs) = skipTrivia cs := by
  induction blanks with
  | nil => rfl
  | cons c blanks ih =>
    obtain ⟨hc, hblanks⟩ := List.forall_mem_cons.1 h
    exact (skipTrivia_trivium (.blank c hc) (blanks ++ cs)).trans (ih hblanks)

theorem skipTrivia_lineFeed (cs : List Char) : skipTrivia ('\n' :: cs) = skipTrivia cs :=
  skipTrivia_trivium (.blank '\n' (by decide)) cs

theorem nextStatement?_malformed {c : Char} {begun key : List Char}
    (hskip : skipTrivia cs = c :: begun)
    (htoken : token? (c :: begun) = some (key, rest)) (h : (skipTrivia rest).head? ≠ some '=') :
    nextStatement? cs = some (.malformed, skipStatement (skipTrivia rest)) := by
  simp only [nextStatement?, hskip, htoken]
  split
  · next hequals => simp [hequals] at h
  · rfl

/-- Whether a malformed statement goes on with a character. -/
def Passed (c : Char) : Prop := c ≠ ';' ∧ c ≠ '\n'

instance : DecidablePred Passed := fun _ ↦ inferInstanceAs (Decidable (_ ∧ _))

theorem skipStatement_append {front : List Char} (h : ∀ c ∈ front, Passed c) (cs : List Char) :
    skipStatement (front ++ cs) = skipStatement cs := by
  induction front with
  | nil => rfl
  | cons c front ih =>
    obtain ⟨⟨hsemicolon, hbreak⟩, hfront⟩ := List.forall_mem_cons.1 h
    rw [List.cons_append, skipStatement, if_neg (by simp [hsemicolon, hbreak]), ih hfront]

/-! ## Rows -/

/-- A statement with a quoted key and a quoted value, written the usual way. -/
structure Row where
  key : List Glyph
  value : List Glyph

namespace Row

def assignment (row : Row) : Assignment where
  leading := []
  key := .quoted row.key
  afterKey := [.blank ' ' (by decide)]
  beforeValue := [.blank ' ' (by decide)]
  value := .quoted row.value
  afterValue := []
  key_setApart := trivial
  value_setApart := trivial

def written (row : Row) : List Char := row.assignment.written

def pair (row : Row) : Pair := row.assignment.pair

def statement (row : Row) : Statement :=
  .pair row.assignment.key.meaning row.assignment.line

/-- Whether neither a semicolon nor a line break stands between the quotes. -/
def Unbroken (row : Row) : Prop :=
  (∀ c ∈ row.key.flatMap Glyph.written, Passed c) ∧ ∀ c ∈ row.value.flatMap Glyph.written, Passed c

instance (row : Row) : Decidable row.Unbroken :=
  @instDecidableAnd _ _ (List.decidableBAll Passed _) (List.decidableBAll Passed _)

variable (row : Row)

theorem written_append (cs : List Char) :
    row.written ++ cs = ['\"'] ++ (row.key.flatMap Glyph.written ++ (['\"', ' ', '=', ' ', '\"'] ++
      (row.value.flatMap Glyph.written ++ (['\"'] ++ ';' :: cs)))) := by
  simp [written, assignment, Assignment.written, Token.written, Gap.written, Trivium.written]

theorem statements_append (cs : List Char) :
    statements (row.written ++ cs) = row.statement :: statements cs := by
  rw [statements_eq, written, nextStatement?_assignment]
  rfl

/-- A row begins with its key. -/
theorem skipTrivia_append (cs : List Char) :
    skipTrivia (row.written ++ cs) = row.written ++ cs := by
  apply skipTrivia_of_stops
  have hquote : isBlank '\"' = false := by decide
  simp [Stops, written_append, hquote, List.cons_prefix_cons]

theorem skipStatement_append {row : Row} (h : row.Unbroken) (cs : List Char) :
    skipStatement (row.written ++ cs) = cs := by
  have hquote : ∀ c ∈ ['\"'], Passed c := by simp [Passed]
  have hequals : ∀ c ∈ ['\"', ' ', '=', ' ', '\"'], Passed c := by simp [Passed]
  rw [written_append, StringsTable.skipStatement_append hquote,
    StringsTable.skipStatement_append h.1, StringsTable.skipStatement_append hequals,
    StringsTable.skipStatement_append h.2, StringsTable.skipStatement_append hquote]
  rfl

end Row

/-! ## Lines of words -/

/-- The words of a line, which blanks set apart. -/
def wordsOf (line : List Char) : List (List Char) := (line.splitOnP isBlank).filter (· ≠ [])

theorem wordsOf_blanks {blanks : List Char} (h : ∀ c ∈ blanks, isBlank c = true)
    (cs : List Char) : wordsOf (blanks ++ cs) = wordsOf cs :=
  Text.filter_splitOnP_separators h cs

theorem wordsOf_word {word : List Char} (hne : word ≠ []) (h : ∀ c ∈ word, isBlank c = false)
    (hrest : ∀ c ∈ rest.head?, isBlank c = true) :
    wordsOf (word ++ rest) = word :: wordsOf rest :=
  Text.filter_splitOnP_part hne h hrest

/-- The longest front of characters of a class, and what follows it. -/
theorem exists_span (isIn : Char → Bool) (cs : List Char) :
    ∃ front behind, cs = front ++ behind ∧ (∀ c ∈ front, isIn c = true) ∧
      ∀ c ∈ behind.head?, isIn c = false := by
  refine ⟨cs.takeWhile isIn, cs.dropWhile isIn, List.takeWhile_append_dropWhile.symm,
    fun c hc ↦ List.mem_takeWhile_imp hc, fun c hc ↦ ?_⟩
  have hhead := List.head?_dropWhile_not isIn cs
  rw [Option.mem_def.1 hc] at hhead
  simpa using hhead

/-- A line is blank, or it has a first word. -/
theorem wordsOf_cases (line : List Char) :
    ((∀ c ∈ line, isBlank c = true) ∧ wordsOf line = []) ∨
      ∃ blanks word behind, line = blanks ++ (word ++ behind) ∧ (∀ c ∈ blanks, isBlank c = true) ∧
        word ≠ [] ∧ (∀ c ∈ word, isBlank c = false) ∧ (∀ c ∈ behind.head?, isBlank c = true) ∧
        wordsOf line = word :: wordsOf behind := by
  obtain ⟨blanks, text, rfl, hblanks, htext⟩ := exists_span isBlank line
  rw [wordsOf_blanks hblanks]
  cases text with
  | nil => exact .inl ⟨by simpa using hblanks, rfl⟩
  | cons c text =>
    obtain ⟨word, behind, hsplit, hword, hbehind⟩ := exists_span (!isBlank ·) (c :: text)
    simp only [Bool.not_eq_true', Bool.not_eq_false'] at hword hbehind
    have hne : word ≠ [] := by
      rintro rfl
      obtain rfl : c :: text = behind := hsplit
      exact Bool.noConfusion ((htext c rfl).symm.trans (hbehind c rfl))
    refine .inr ⟨blanks, word, behind, by rw [hsplit], hblanks, hne, hword, hbehind, ?_⟩
    rw [hsplit, wordsOf_word hne hword hbehind]

/-- A line without the characters that mark a statement or a comment. -/
structure Prose where
  chars : List Char
  plain : ∀ c ∈ chars, c ∉ ['=', ';', '\"', '/', '\n']

/-- A word of a line of prose. -/
structure PlainWord (word : List Char) : Prop where
  ne_nil : word ≠ []
  solid : ∀ c ∈ word, isBlank c = false
  plain : ∀ c ∈ word, c ∉ ['=', ';', '\"', '/', '\n']

namespace PlainWord

variable {word : List Char}

theorem notMem (h : PlainWord word) {c : Char} (hc : c ∈ ['=', ';', '\"', '/', '\n']) : c ∉ word :=
  fun hmem ↦ h.plain c hmem hc

theorem stops (h : PlainWord word) (cs : List Char) : Stops (word ++ cs) := by
  obtain ⟨c, others, rfl⟩ := List.exists_cons_of_ne_nil h.ne_nil
  have hslash : '/' ≠ c := fun heq ↦ h.notMem (by decide : '/' ∈ _) (heq ▸ List.mem_cons_self)
  simp [Stops, List.cons_prefix_cons, h.solid c List.mem_cons_self, hslash]

/-- A plain word as a token. -/
def token (h : PlainWord word) : Token := .bare
  { chars := word
    ne_nil := h.ne_nil
    inside := fun c hc ↦ by
      have hplain := h.plain c hc
      simp only [List.mem_cons, not_or] at hplain
      exact ⟨h.solid c hc, hplain.1, hplain.2.1⟩
    opening := fun opener hopener hbegins ↦ by
      have hmark : ∃ c ∈ opener, c ∈ ['=', ';', '\"', '/', '\n'] := by
        simp only [List.mem_cons, List.not_mem_nil, or_false] at hopener
        rcases hopener with rfl | rfl | rfl <;> simp
      obtain ⟨c, hc, hcmark⟩ := hmark
      exact h.notMem hcmark (hbegins.subset hc) }

/-- A word that has no equals sign behind it is malformed, and what is passed over begins behind the
blanks that follow it. -/
theorem statements_append (h : PlainWord word) (hrest : ∀ c ∈ rest.head?, isBlank c = true)
    (hequals : (skipTrivia rest).head? ≠ some '=') :
    statements (word ++ rest) = .malformed :: statements (skipStatement (skipTrivia rest)) := by
  have hends : h.token.EndsBefore rest := fun c hc ↦ by simp [endsWord, hrest c hc]
  have htoken : token? (word ++ rest) = some (word, rest) := token?_written hends
  have hne : word ++ rest ≠ [] := List.append_ne_nil_of_left_ne_nil h.ne_nil rest
  obtain ⟨c, begun, hbegun⟩ := List.exists_cons_of_ne_nil hne
  have hskip : skipTrivia (word ++ rest) = c :: begun :=
    (skipTrivia_of_stops (h.stops rest)).trans hbegun
  rw [statements_eq, nextStatement?_malformed hskip (hbegun ▸ htoken) hequals]

end PlainWord

/-- What is passed over at the end of a line is the line break. -/
theorem statements_skipStatement (h : ∀ c ∈ rest.head?, c = '\n') :
    statements (skipStatement rest) = statements rest := by
  cases rest with
  | nil => rfl
  | cons c rest =>
    obtain rfl := h c rfl
    exact (statements_of_skipTrivia (skipTrivia_lineFeed rest)).symm

/-- Behind the first word of a line, a second one keeps to the line what is passed over. -/
theorem PlainWord.statements_behind {word behind : List Char} (h : PlainWord word)
    (hplain : ∀ c ∈ behind, c ∉ ['=', ';', '\"', '/', '\n'])
    (hbehind : ∀ c ∈ behind.head?, isBlank c = true) (hend : ∀ c ∈ rest.head?, c = '\n')
    (hequals : (skipTrivia rest).head? ≠ some '=') :
    statements (word ++ (behind ++ rest)) = .malformed ::
      statements (if wordsOf behind = [] then skipStatement (skipTrivia rest) else rest) := by
  have hhead : ∀ c ∈ (behind ++ rest).head?, isBlank c = true := by
    cases behind with
    | nil => exact fun c hc ↦ hend c hc ▸ by decide
    | cons c behind => exact hbehind
  -- Without a second word the blanks run on into the next line, and nothing stops them there.
  rcases wordsOf_cases behind with ⟨hblanks, hwords⟩ |
    ⟨blanks, second, others, rfl, hblanks, hne, hsolid, -, hwords⟩
  · have hskip : skipTrivia (behind ++ rest) = skipTrivia rest := skipTrivia_blanks hblanks rest
    rw [h.statements_append hhead (hskip ▸ hequals), hskip, if_pos hwords]
  · have hinside : ∀ c ∈ second ++ others, c ∉ ['=', ';', '\"', '/', '\n'] := fun c hc ↦
      hplain c (List.mem_append_right blanks hc)
    have hsecond : PlainWord second :=
      ⟨hne, hsolid, fun c hc ↦ hinside c (List.mem_append_left others hc)⟩
    have hpassed : ∀ c ∈ second ++ others, Passed c := fun c hc ↦ by
      have := hinside c hc
      simp only [List.mem_cons, not_or] at this
      exact ⟨this.2.1, this.2.2.2.2.1⟩
    have hskip : skipTrivia (blanks ++ (second ++ others) ++ rest) = second ++ others ++ rest := by
      rw [List.append_assoc, skipTrivia_blanks hblanks, List.append_assoc]
      exact skipTrivia_of_stops (hsecond.stops _)
    have hstart : (second ++ others ++ rest).head? ≠ some '=' := by
      obtain ⟨c, letters, rfl⟩ := List.exists_cons_of_ne_nil hne
      rintro ⟨⟩
      exact hsecond.notMem (by decide) List.mem_cons_self
    rw [h.statements_append hhead (hskip ▸ hstart), hskip, skipStatement_append hpassed,
      statements_skipStatement hend, hwords, if_neg (List.cons_ne_nil _ _)]

namespace Prose

def words (line : Prose) : List (List Char) := wordsOf line.chars

/-- The line without byte order marks in front. -/
def unmarked (line : Prose) : Prose where
  chars := line.chars.dropWhile (· == '\ufeff')
  plain c hc := line.plain c ((List.dropWhile_suffix _).subset hc)

/-- What is read after a line of prose: the next line, except that a line of a single word takes
with it what begins behind the blanks after it. -/
theorem filterMap_statements (line : Prose) (hend : ∀ c ∈ rest.head?, c = '\n')
    (hequals : (skipTrivia rest).head? ≠ some '=') :
    (statements (line.chars ++ rest)).filterMap Statement.pair? =
      (statements (if line.words.length = 1 then skipStatement (skipTrivia rest)
        else rest)).filterMap Statement.pair? := by
  have hplain := line.plain
  rw [words]
  rcases wordsOf_cases line.chars with ⟨hblanks, hwords⟩ |
    ⟨blanks, word, behind, hline, hblanks, hne, hsolid, hbehind, hwords⟩
  · rw [statements_of_skipTrivia (skipTrivia_blanks hblanks rest), hwords]
    rfl
  · rw [hline] at hplain
    have hword : PlainWord word := ⟨hne, hsolid, fun c hc ↦
      hplain c (List.mem_append_right blanks (List.mem_append_left behind hc))⟩
    have hrest : ∀ c ∈ behind, c ∉ ['=', ';', '\"', '/', '\n'] := fun c hc ↦
      hplain c (List.mem_append_right blanks (List.mem_append_right word hc))
    have hsingle : (word :: wordsOf behind).length = 1 ↔ wordsOf behind = [] := by simp
    rw [hwords, hline, List.append_assoc, List.append_assoc,
      statements_of_skipTrivia (skipTrivia_blanks hblanks _),
      hword.statements_behind hrest hbehind hend hequals]
    simp only [hsingle, List.filterMap_cons, Statement.pair?]

end Prose

/-! ## Interrupted tables -/

/-- A table of rows with a line of prose between them, each on a line of its own. -/
structure Interrupted where
  before : List Row
  line : Prose
  after : List Row
  /-- Whether there is a line break at the end of the table too. -/
  ended : Bool

namespace Interrupted

def written (table : Interrupted) : List Char :=
  ['\n'].intercalate
      (table.before.map Row.written ++ table.line.chars :: table.after.map Row.written) ++
    if table.ended then ['\n'] else []

/-- The line of prose as it is read. Byte order marks at the beginning of a table do not count. -/
def seen (table : Interrupted) : Prose :=
  match table.before with
  | [] => table.line.unmarked
  | _ :: _ => table.line

/-- All that follows the line of prose. -/
def behind (table : Interrupted) : List Char :=
  table.after.flatMap (fun row ↦ '\n' :: row.written) ++ if table.ended then ['\n'] else []

variable (table : Interrupted)

theorem intercalate_append_cons (lines : List (List Char)) (line : List Char)
    (others : List (List Char)) :
    ['\n'].intercalate (lines ++ line :: others) =
      lines.flatMap (· ++ ['\n']) ++ (line ++ others.flatMap ('\n' :: ·)) := by
  induction lines with
  | nil =>
    induction others generalizing line with
    | nil => simp
    | cons other others ih =>
      rw [List.nil_append, List.intercalate_cons_cons, ← List.nil_append (other :: others), ih]
      simp
  | cons first lines ih =>
    have hne : lines ++ line :: others ≠ [] := by simp
    obtain ⟨second, rest, hsecond⟩ := List.exists_cons_of_ne_nil hne
    rw [List.cons_append, hsecond, List.intercalate_cons_cons, ← hsecond, ih]
    simp

theorem written_eq : table.written = table.before.flatMap (fun row ↦ row.written ++ ['\n']) ++
    (table.line.chars ++ table.behind) := by
  rw [written, intercalate_append_cons, behind, List.flatMap_map, List.flatMap_map,
    List.append_assoc, List.append_assoc]

theorem head?_behind : ∀ c ∈ table.behind.head?, c = '\n' := by
  rw [behind]
  cases table.after with
  | nil => cases table.ended <;> simp
  | cons next others => simp

theorem dropWhile_written : table.written.dropWhile (· == '\ufeff') =
    table.before.flatMap (fun row ↦ row.written ++ ['\n']) ++
      (table.seen.chars ++ table.behind) := by
  rw [written_eq, seen]
  cases hbefore : table.before with
  | nil =>
    have hbehind : table.behind.dropWhile (· == '\ufeff') = table.behind := by
      have hhead := table.head?_behind
      cases hcs : table.behind with
      | nil => rfl
      | cons c rest =>
        obtain rfl := hhead c (by rw [hcs]; rfl)
        rfl
    rw [List.flatMap_nil, List.nil_append, List.nil_append, List.dropWhile_append, hbehind]
    split
    · next hempty => simp [Prose.unmarked, List.isEmpty_iff.1 hempty]
    · rfl
  | cons row rows =>
    rw [List.flatMap_cons, List.append_assoc, List.append_assoc, Row.written_append]
    rfl

theorem statements_rows (rows : List Row) (cs : List Char) :
    statements (rows.flatMap (fun row ↦ row.written ++ ['\n']) ++ cs) =
      rows.map Row.statement ++ statements cs := by
  induction rows with
  | nil => rfl
  | cons row rows ih =>
    rw [List.flatMap_cons, List.append_assoc, List.append_assoc, Row.statements_append,
      List.singleton_append, statements_of_skipTrivia (skipTrivia_lineFeed _), ih]
    rfl

theorem statements_lines (rows : List Row) (ended : Bool) :
    statements (rows.flatMap (fun row ↦ '\n' :: row.written) ++ if ended then ['\n'] else []) =
      rows.map Row.statement := by
  induction rows with
  | nil =>
    cases ended with
    | false => exact statements_nil
    | true => exact (statements_of_skipTrivia (skipTrivia_lineFeed [])).trans statements_nil
  | cons row rows ih =>
    rw [List.flatMap_cons, List.append_assoc, List.cons_append,
      statements_of_skipTrivia (skipTrivia_lineFeed _), Row.statements_append, ih]
    rfl

theorem skipTrivia_behind_nil (h : table.after = []) : skipTrivia table.behind = [] := by
  rw [behind, h]
  cases table.ended with
  | false => exact skipTrivia.eq_1
  | true => exact (skipTrivia_lineFeed []).trans skipTrivia.eq_1

theorem skipTrivia_behind_cons {next : Row} {others : List Row} (h : table.after = next :: others) :
    skipTrivia table.behind = next.written ++ { table with after := others }.behind := by
  rw [behind, behind, h, List.flatMap_cons, List.append_assoc, List.cons_append,
    skipTrivia_lineFeed, Row.skipTrivia_append]

theorem filterMap_pair?_rows (rows : List Row) :
    (rows.map Row.statement).filterMap Statement.pair? = rows.map Row.pair := by
  rw [List.filterMap_map]
  exact congrFun List.filterMap_eq_map rows

/-- What is left of the rows behind the line if reading has come to the first of them. -/
theorem statements_skipStatement_behind (h : ∀ next ∈ table.after.head?, next.Unbroken) :
    statements (skipStatement (skipTrivia table.behind)) = table.after.tail.map Row.statement := by
  cases hafter : table.after with
  | nil =>
    rw [table.skipTrivia_behind_nil hafter]
    exact statements_nil
  | cons next others =>
    rw [table.skipTrivia_behind_cons hafter, Row.skipStatement_append (h next (by simp [hafter]))]
    exact statements_lines others table.ended

theorem head?_skipTrivia_behind : (skipTrivia table.behind).head? ≠ some '=' := by
  cases hafter : table.after with
  | nil => simp [table.skipTrivia_behind_nil hafter]
  | cons next others =>
    rw [table.skipTrivia_behind_cons hafter, Row.written_append]
    simp

theorem pairs_eq : pairs (String.ofList table.written) = table.before.map Row.pair ++
    (statements (if table.seen.words.length = 1 then skipStatement (skipTrivia table.behind)
      else table.behind)).filterMap Statement.pair? := by
  rw [pairs, String.toList_ofList, dropWhile_written, statements_rows, List.filterMap_append,
    filterMap_pair?_rows, table.seen.filterMap_statements table.head?_behind
      table.head?_skipTrivia_behind]

/-- A line of prose costs itself alone, unless it is read as a single word. Then it costs the next
row too, where no semicolon and no line break stands between the quotes of this row. -/
theorem pairs_interrupted
    (h : table.seen.words.length = 1 → ∀ next ∈ table.after.head?, next.Unbroken) :
    pairs (String.ofList table.written) =
      (table.before ++ if table.seen.words.length = 1 then table.after.tail else table.after).map
        Row.pair := by
  rw [pairs_eq, List.map_append]
  split
  · next hsingle => rw [table.statements_skipStatement_behind (h hsingle), filterMap_pair?_rows]
  · rw [behind, statements_lines, filterMap_pair?_rows]

def titleRow : Row := ⟨[.raw 'a' (by decide)], [.raw '1' (by decide)]⟩

def menuRow : Row := ⟨[.raw 'b' (by decide)], [.raw '2' (by decide)]⟩

def dayRow : Row := ⟨[.raw 'c' (by decide)], [.raw ';' (by decide)]⟩

/-- Three rows, and the line `x` behind the first. -/
def scribbled : Interrupted where
  before := [titleRow]
  line := ⟨['x'], by simp⟩
  after := [menuRow, dayRow]
  ended := true

example : scribbled.written = "\"a\" = \"1\";\nx\n\"b\" = \"2\";\n\"c\" = \";\";\n".toList := by
  decide

theorem unbroken_scribbled : ∀ next ∈ scribbled.after.head?, next.Unbroken := by
  rintro next ⟨⟩
  decide

theorem pairs_interrupted_scribbled :
    scribbled.seen.words.length = 1 ∧ (∀ next ∈ scribbled.after.head?, next.Unbroken) ∧
      pairs (String.ofList scribbled.written) = [⟨"a", "1"⟩, ⟨"c", ";"⟩] :=
  ⟨by decide, unbroken_scribbled, scribbled.pairs_interrupted fun _ ↦ unbroken_scribbled⟩

/-- A line of a single word costs more than itself. -/
theorem not_pairs_interrupted : ¬∀ table : Interrupted, table.line.words ≠ [] →
    pairs (String.ofList table.written) = (table.before ++ table.after).map Row.pair := by
  intro h
  have hlost := h scribbled (by decide)
  have hsingle : scribbled.seen.words.length = 1 := by decide
  rw [pairs_eq, if_pos hsingle, statements_skipStatement_behind scribbled unbroken_scribbled,
    filterMap_pair?_rows] at hlost
  exact absurd (congrArg List.length hlost) (by decide)

end Interrupted

end LocalizedAccessors.StringsTable
