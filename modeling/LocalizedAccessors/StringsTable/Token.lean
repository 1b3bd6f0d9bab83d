import LocalizedAccessors.Text.Blank
import LocalizedAccessors.Text.Digit

/-!
# Tokens of a strings table

A token is a quoted string or a bare word, and between tokens there may be blanks and comments. All
readers here take characters and give back the characters that they leave, which are always a
suffix of what they were given; a token leaves less than it was given.
-/

namespace LocalizedAccessors.StringsTable

open Text (isBlank)

/-- The rest after the end of a line. -/
def afterLine : List Char → List Char
  | [] => []
  | c :: rest => if c == '\n' then rest else afterLine rest

/-- The rest after the end of a block comment, which is the first `*/`. -/
def afterBlock : List Char → List Char
  | [] => []
  | '*' :: '/' :: rest => rest
  | _ :: rest => afterBlock rest

theorem afterLine_suffix (cs : List Char) : afterLine cs <:+ cs := by
  induction cs with
  | nil => exact List.suffix_refl _
  | cons c rest ih =>
    rw [afterLine]
    split
    · exact List.suffix_cons ..
    · exact ih.trans (List.suffix_cons ..)

theorem afterBlock_suffix (cs : List Char) : afterBlock cs <:+ cs := by
  fun_induction afterBlock cs with
  | case1 => exact List.suffix_refl _
  | case2 rest => exact (List.suffix_cons ..).trans (List.suffix_cons ..)
  | case3 c rest _ ih => exact ih.trans (List.suffix_cons ..)

/-- The rest after blanks and comments. A comment begins with two slashes and ends with the line, or
begins with a slash and an asterisk and ends with an asterisk and a slash. -/
def skipTrivia : List Char → List Char
  | [] => []
  | '/' :: '/' :: rest => skipTrivia (afterLine rest)
  | '/' :: '*' :: rest => skipTrivia (afterBlock rest)
  | c :: rest => if isBlank c then skipTrivia rest else c :: rest
termination_by cs => cs.length
decreasing_by
  · have := (afterLine_suffix rest).length_le
    simp only [List.length_cons]
    omega
  · have := (afterBlock_suffix rest).length_le
    simp only [List.length_cons]
    omega
  · exact Nat.lt_succ_self _

theorem skipTrivia_suffix (cs : List Char) : skipTrivia cs <:+ cs := by
  fun_induction skipTrivia cs with
  | case1 => exact List.suffix_refl _
  | case2 rest ih =>
    exact ih.trans <| (afterLine_suffix rest).trans <|
      (List.suffix_cons ..).trans (List.suffix_cons ..)
  | case3 rest ih =>
    exact ih.trans <| (afterBlock_suffix rest).trans <|
      (List.suffix_cons ..).trans (List.suffix_cons ..)
  | case4 c rest _ _ _ ih => exact ih.trans (List.suffix_cons ..)
  | case5 => exact List.suffix_refl _

/-- The hexadecimal digits of a Unicode escape: as many as there are, but at most four. -/
def escapeDigits (cs : List Char) : List Char := (cs.take 4).takeWhile Text.isHexDigit

/-- What a Unicode escape with these digits contributes: the character with that number, or, if
there is none, a backslash, the letter `U` and the digits. -/
def unicodeEscape (digits : List Char) : List Char :=
  let code := Text.numberFrom 16 0 digits
  if digits ≠ [] ∧ code.isValidChar then [Char.ofNat code] else '\\' :: 'U' :: digits

/-- What an escape stands for, given by the character after the backslash, if it is no Unicode
escape. -/
def simpleEscape : Char → Char
  | 'n' => '\n'
  | 'r' => '\r'
  | 't' => '\t'
  | c => c

/-- Puts characters in front of a text that was read. -/
def preceded (front : List Char) (text : List Char × List Char) : List Char × List Char :=
  (front ++ text.1, text.2)

/-- The text of a quoted string whose opening quote was just read, and the rest after its closing
quote. A string without one extends to the end. -/
def quoted : List Char → List Char × List Char
  | [] => ([], [])
  | '\"' :: rest => ([], rest)
  | ['\\'] => (['\\'], [])
  | '\\' :: c :: rest =>
    if c == 'U' || c == 'u' then
      preceded (unicodeEscape (escapeDigits rest)) (quoted (rest.drop (escapeDigits rest).length))
    else preceded [simpleEscape c] (quoted rest)
  | c :: rest => preceded [c] (quoted rest)
termination_by cs => cs.length
decreasing_by all_goals simp only [List.length_cons, List.length_drop]; omega

theorem quoted_suffix (cs : List Char) : (quoted cs).2 <:+ cs := by
  fun_induction quoted cs with
  | case1 => exact List.suffix_refl _
  | case2 rest => exact List.suffix_cons ..
  | case3 => exact List.suffix_cons ..
  | case4 c rest _ ih =>
    exact ih.trans <| (List.drop_suffix ..).trans <|
      (List.suffix_cons ..).trans (List.suffix_cons ..)
  | case5 c rest _ ih => exact ih.trans <| (List.suffix_cons ..).trans (List.suffix_cons ..)
  | case6 c rest _ _ _ ih => exact ih.trans (List.suffix_cons ..)

/-- The characters at which a bare word ends. -/
def endsWord (c : Char) : Bool := isBlank c || c == '=' || c == ';'

/-- The token at the beginning of these characters, and the rest. There is none at the end, before
an equals sign and before a semicolon. -/
def token? (cs : List Char) : Option (List Char × List Char) :=
  match cs with
  | [] => none
  | '\"' :: rest => some (quoted rest)
  | c :: _ =>
    if c == '=' || c == ';' then none
    else some (cs.takeWhile (!endsWord ·), cs.dropWhile (!endsWord ·))

theorem token?_suffix {cs text rest : List Char} (h : token? cs = some (text, rest)) :
    rest <:+ cs := by
  unfold token? at h
  split at h
  · simp at h
  · next tail =>
    simp only [Option.some.injEq] at h
    rw [show rest = (quoted tail).2 by rw [h]]
    exact (quoted_suffix tail).trans (List.suffix_cons ..)
  · split at h
    · simp at h
    · simp only [Option.some.injEq, Prod.mk.injEq] at h
      rw [← h.2]
      exact List.dropWhile_suffix _

end LocalizedAccessors.StringsTable
