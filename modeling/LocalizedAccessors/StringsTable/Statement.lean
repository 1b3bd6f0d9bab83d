import LocalizedAccessors.StringsTable.Token

/-!
# Statements of a strings table

A strings table is a sequence of statements `key = value;`. A statement that does not begin this way
is passed over up to the next semicolon or the end of the line; the semicolon after a value may be
missing. Every statement takes at least one character, so reading comes to an end.
-/

namespace LocalizedAccessors.StringsTable

/-- A key and its value as they stand in a table. -/
structure Pair where
  key : String
  value : String
  deriving DecidableEq, Repr

/-- A statement that was read. -/
inductive Statement where
  | pair (key value : List Char)
  | malformed
  deriving DecidableEq, Repr

/-- The rest after a malformed statement. -/
def skipStatement : List Char → List Char
  | [] => []
  | c :: rest => if c == ';' || c == '\n' then rest else skipStatement rest

def isLineBreak (c : Char) : Bool := c == '\n' || c == '\r'

/-- The rest after the semicolon that may end a statement. -/
def afterSemicolon : List Char → List Char
  | ';' :: rest => rest
  | cs => cs

/-- The statement whose equals sign was just read, and the rest. Line breaks in the value are left
out. A missing value makes the statement malformed, and then nothing more is passed over. -/
def valueOf (key cs : List Char) : Statement × List Char :=
  match token? (skipTrivia cs) with
  | none => (.malformed, skipTrivia cs)
  | some (value, rest) =>
    (.pair key (value.filter (!isLineBreak ·)), afterSemicolon (skipTrivia rest))

/-- The next statement and the rest after it; or nothing if there are only blanks and comments. -/
def nextStatement? (cs : List Char) : Option (Statement × List Char) :=
  match skipTrivia cs with
  | [] => none
  | c :: begun =>
    match token? (c :: begun) with
    | none => some (.malformed, skipStatement (c :: begun))
    | some (key, rest) =>
      match skipTrivia rest with
      | '=' :: after => some (valueOf key after)
      | other => some (.malformed, skipStatement other)

theorem skipStatement_suffix (cs : List Char) : skipStatement cs <:+ cs := by
  induction cs with
  | nil => exact List.suffix_refl _
  | cons c rest ih =>
    rw [skipStatement]
    split
    · exact List.suffix_cons ..
    · exact ih.trans (List.suffix_cons ..)

theorem afterSemicolon_suffix (cs : List Char) : afterSemicolon cs <:+ cs := by
  unfold afterSemicolon
  split
  · exact List.suffix_cons ..
  · exact List.suffix_refl _

theorem valueOf_suffix (key cs : List Char) : (valueOf key cs).2 <:+ cs := by
  unfold valueOf
  split
  · exact skipTrivia_suffix cs
  · next h =>
    exact (afterSemicolon_suffix _).trans <| (skipTrivia_suffix _).trans <|
      (token?_suffix h).trans (skipTrivia_suffix cs)

theorem skipStatement_cons_suffix (c : Char) (cs : List Char) : skipStatement (c :: cs) <:+ cs := by
  rw [skipStatement]
  split
  · exact List.suffix_refl _
  · exact skipStatement_suffix cs

/-- A token takes the first character, unless it is a bare word of no characters. -/
theorem token?_cons_suffix {c : Char} {cs text rest : List Char}
    (h : token? (c :: cs) = some (text, rest)) (hblank : Text.isBlank c = false) : rest <:+ cs := by
  unfold token? at h
  split at h
  · simp at h
  · next tail hquote =>
    obtain ⟨-, rfl⟩ := List.cons.inj hquote
    simp only [Option.some.injEq] at h
    rw [show rest = (quoted cs).2 by rw [h]]
    exact quoted_suffix cs
  · next d tail _ hcons =>
    obtain ⟨rfl, rfl⟩ := List.cons.inj hcons
    split at h
    · simp at h
    · next hmark =>
      simp only [Option.some.injEq, Prod.mk.injEq] at h
      have hword : endsWord c = false := by simp_all [endsWord]
      simp only [← h.2, List.dropWhile_cons, hword, Bool.not_false, if_true]
      exact List.dropWhile_suffix _

/-- What is left after trivia does not begin with a blank. -/
theorem isBlank_head_skipTrivia (cs : List Char) :
    ∀ c, (skipTrivia cs).head? = some c → Text.isBlank c = false := by
  fun_induction skipTrivia cs with
  | case1 => simp
  | case2 rest ih => exact ih
  | case3 rest ih => exact ih
  | case4 c rest _ _ _ ih => exact ih
  | case5 c rest _ _ h =>
    intro d hd
    simp only [List.head?_cons, Option.some.injEq] at hd
    simpa [hd] using h

theorem nextStatement?_eq_none_iff {cs : List Char} :
    nextStatement? cs = none ↔ skipTrivia cs = [] := by
  constructor
  · intro h
    unfold nextStatement? at h
    split at h
    · assumption
    · split at h
      · simp at h
      · split at h <;> simp at h
  · intro h
    simp only [nextStatement?, h]

/-- Every statement takes at least the first character behind blanks and comments. -/
theorem nextStatement?_suffix {cs rest : List Char} {statement : Statement}
    (h : nextStatement? cs = some (statement, rest)) :
    ∃ c begun, skipTrivia cs = c :: begun ∧ rest <:+ begun := by
  unfold nextStatement? at h
  split at h
  · simp at h
  · next c begun hbegun =>
    refine ⟨c, begun, hbegun, ?_⟩
    split at h
    · simp only [Option.some.injEq, Prod.mk.injEq] at h
      rw [← h.2]
      exact skipStatement_cons_suffix c begun
    · next key afterKey htoken =>
      have hblank := isBlank_head_skipTrivia cs c (by rw [hbegun]; rfl)
      have hbehind := (skipTrivia_suffix afterKey).trans (token?_cons_suffix htoken hblank)
      split at h
      · next after hafter =>
        simp only [Option.some.injEq] at h
        have hvalue := valueOf_suffix key after
        rw [h] at hvalue
        rw [hafter] at hbehind
        exact hvalue.trans ((List.suffix_cons ..).trans hbehind)
      · simp only [Option.some.injEq, Prod.mk.injEq] at h
        rw [← h.2]
        exact (skipStatement_suffix _).trans hbehind

theorem nextStatement?_length_lt {cs rest : List Char} {statement : Statement}
    (h : nextStatement? cs = some (statement, rest)) : rest.length < cs.length := by
  obtain ⟨c, begun, hbegun, hrest⟩ := nextStatement?_suffix h
  have hle := (skipTrivia_suffix cs).length_le
  rw [hbegun] at hle
  exact Nat.lt_of_le_of_lt hrest.length_le hle

/-- The statements of a table in the order they stand. -/
def statements (cs : List Char) : List Statement :=
  match _h : nextStatement? cs with
  | none => []
  | some (statement, rest) => statement :: statements rest
termination_by cs.length
decreasing_by exact nextStatement?_length_lt _h

def Statement.pair? : Statement → Option Pair
  | .pair key value => some ⟨String.ofList key, String.ofList value⟩
  | .malformed => none

/-- The pairs of a table in the order they stand, repeated keys included. Byte order marks in front
of the table do not count. -/
def pairs (text : String) : List Pair :=
  (statements (text.toList.dropWhile (· == '\ufeff'))).filterMap Statement.pair?

end LocalizedAccessors.StringsTable
