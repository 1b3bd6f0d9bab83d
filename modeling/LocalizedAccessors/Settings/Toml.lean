import LocalizedAccessors.Settings.Value
import LocalizedAccessors.Text.Digit

/-!
# Settings in TOML

A file of settings is a TOML document. It is read as far as settings go: texts in the four forms of
TOML strings, truth values, empty arrays and tables. A document with any other value holds no
settings and is refused like one that is malformed, and so are arrays of tables.

First the characters are grouped into tokens, in which a comment leaves nothing; then every line of
tokens is read as the header of a table or as the assignment of a key; and last the statements are
entered one after another, which refuses everything that is defined twice.
-/

namespace LocalizedAccessors.Toml

inductive Token where
  | newline
  | dot
  | equals
  | openBracket
  | closeBracket
  | openBrace
  | closeBrace
  /-- Brackets with only blanks, line ends and comments between them. -/
  | emptyArray
  | bare (word : String)
  /-- A string; only one that cannot span lines may be a key. -/
  | quoted (text : String) (multiline : Bool)
  deriving DecidableEq, Repr

def isSpace (c : Char) : Bool := c == ' ' || c == '\t'

/-- The characters that may stand in comments and strings: all but the control characters, of which
only the tab is allowed. -/
def isPrintable (c : Char) : Bool := c == '\t' || (' ' ≤ c && c != '\x7f')

def isBare (c : Char) : Bool := c.isAlphanum || c == '_' || c == '-'

/-- The rest after one line end, if there is one. -/
def afterNewline? : List Char → Option (List Char)
  | '\n' :: rest => some rest
  | '\r' :: '\n' :: rest => some rest
  | _ => none

/-- The character with the number of the first `n` digits, and the rest after them. -/
def codePoint? (n : Nat) (cs : List Char) : Option (Char × List Char) :=
  let digits := cs.take n
  let code := Text.numberFrom 16 0 digits
  if digits.length = n ∧ digits.all Text.isHexDigit ∧ code.isValidChar then
    some (Char.ofNat code, cs.drop n)
  else none

/-- The character of an escape whose backslash was just read, and the rest after it. -/
def escape? : List Char → Option (Char × List Char)
  | 'b' :: rest => some ('\x08', rest)
  | 't' :: rest => some ('\t', rest)
  | 'n' :: rest => some ('\n', rest)
  | 'f' :: rest => some ('\x0c', rest)
  | 'r' :: rest => some ('\r', rest)
  | '\"' :: rest => some ('\"', rest)
  | '\\' :: rest => some ('\\', rest)
  | 'u' :: rest => codePoint? 4 rest
  | 'U' :: rest => codePoint? 8 rest
  | _ => none

theorem codePoint?_length_le {n : Nat} {cs rest : List Char} {c : Char}
    (h : codePoint? n cs = some (c, rest)) : rest.length ≤ cs.length := by
  simp only [codePoint?, Option.ite_none_right_eq_some, Option.some.injEq, Prod.mk.injEq] at h
  simp [← h.2.2]

theorem escape?_length_lt {cs rest : List Char} {c : Char}
    (h : escape? cs = some (c, rest)) : rest.length < cs.length := by
  unfold escape? at h
  split at h
  case h_8 | h_9 => exact Nat.lt_succ_of_le (codePoint?_length_le h)
  case h_10 => simp at h
  all_goals
    simp only [Option.some.injEq, Prod.mk.injEq] at h
    simp [h.2]

/-- The text up to the closing mark of a string within one line, and the rest after it. In a literal
string a backslash stands for itself. -/
def lineString? (mark : Char) (literal : Bool) : List Char → Option (List Char × List Char)
  | [] => none
  | c :: rest =>
    if c = mark then some ([], rest)
    else if c = '\\' ∧ !literal then
      match _h : escape? rest with
      | none => none
      | some (escaped, after) => (lineString? mark literal after).map fun text ↦
          (escaped :: text.1, text.2)
    else if isPrintable c then (lineString? mark literal rest).map fun text ↦ (c :: text.1, text.2)
    else none
termination_by cs => cs.length
decreasing_by
  · exact Nat.lt_succ_of_lt (escape?_length_lt _h)
  · exact Nat.lt_succ_self _

/-- Whether a backslash before these characters joins lines: only spaces stand before the end of
the line. -/
def joinsLines (cs : List Char) : Bool := (afterNewline? (cs.dropWhile isSpace)).isSome

/-- The rest after spaces and line ends. A carriage return counts only before a line feed. -/
def afterBreaks : List Char → List Char
  | [] => []
  | '\r' :: rest =>
    match rest with
    | '\n' :: _ => afterBreaks rest
    | _ => '\r' :: rest
  | c :: rest => if isSpace c || c == '\n' then afterBreaks rest else c :: rest

theorem afterBreaks_length_le (cs : List Char) : (afterBreaks cs).length ≤ cs.length := by
  fun_induction afterBreaks cs with
  | case1 => exact Nat.le_refl _
  | case2 rest ih => exact Nat.le_succ_of_le ih
  | case3 => exact Nat.le_refl _
  | case4 c rest _ _ ih => exact Nat.le_succ_of_le ih
  | case5 => exact Nat.le_refl _

/-- The text up to the closing marks of a string over several lines, and the rest after them. Line
ends become line feeds. Of more than three marks at the end, up to two belong to the text. -/
def blockString? (mark : Char) (literal : Bool) : List Char → Option (List Char × List Char)
  | [] => none
  | c :: rest =>
    if c = mark ∧ rest.take 2 = [mark, mark] then
      let extra := ((rest.drop 2).take 2).takeWhile (· == mark)
      some (extra, rest.drop (2 + extra.length))
    else if c = '\\' ∧ !literal then
      if joinsLines rest then blockString? mark literal (afterBreaks rest)
      else
        match _h : escape? rest with
        | none => none
        | some (escaped, after) => (blockString? mark literal after).map fun text ↦
            (escaped :: text.1, text.2)
    else if c = '\r' then
      match rest with
      | '\n' :: after => (blockString? mark literal after).map fun text ↦ ('\n' :: text.1, text.2)
      | _ => none
    else if c = '\n' ∨ isPrintable c then
      (blockString? mark literal rest).map fun text ↦ (c :: text.1, text.2)
    else none
termination_by cs => cs.length
decreasing_by
  · exact Nat.lt_succ_of_le (afterBreaks_length_le rest)
  · exact Nat.lt_succ_of_lt (escape?_length_lt _h)
  · simp only [List.length_cons]; omega
  · exact Nat.lt_succ_self _

/-- The token of a string whose first mark was just read, and the rest after it. -/
def string? (mark : Char) (cs : List Char) : Option (Token × List Char) :=
  let literal := mark == '\''
  if cs.take 2 = [mark, mark] then
    let body := cs.drop 2
    (blockString? mark literal ((afterNewline? body).getD body)).map fun text ↦
      (.quoted (String.ofList text.1) true, text.2)
  else
    (lineString? mark literal cs).map fun text ↦ (.quoted (String.ofList text.1) false, text.2)

/-- The rest after a comment whose mark was just read. -/
def afterComment? (cs : List Char) : Option (List Char) :=
  match cs.dropWhile isPrintable with
  | [] => some []
  | rest => if (afterNewline? rest).isSome then some rest else none

/-- Whether only spaces, line ends and comments stand before a closing bracket; if so, the rest
after it. The count bounds the number of comments. -/
def afterEmptyArray? : Nat → List Char → Option (List Char)
  | 0, _ => none
  | comments + 1, cs =>
    match afterBreaks cs with
    | ']' :: rest => some rest
    | '#' :: rest => (afterComment? rest).bind (afterEmptyArray? comments)
    | _ => none

/-- The token at the beginning of some characters, if they do not begin with a space or a comment,
and the rest. -/
def token? (c : Char) (rest : List Char) : Option (Option Token × List Char) :=
  let mark (token : Token) : Option (Option Token × List Char) := some (some token, rest)
  if isSpace c then some (none, rest)
  else if c == '#' then (afterComment? rest).map fun after ↦ (none, after)
  else if c == '.' then mark .dot
  else if c == '=' then mark .equals
  else if c == '\x7b' then mark .openBrace
  else if c == '\x7d' then mark .closeBrace
  else if c == ']' then mark .closeBracket
  else if c == '[' then
    match afterEmptyArray? (rest.length + 1) rest with
    | some after => some (some .emptyArray, after)
    | none => mark .openBracket
  else if c == '\"' || c == '\'' then
    (string? c rest).map fun (token, after) ↦ (some token, after)
  else if isBare c then
    some (some (.bare (String.ofList (c :: rest.takeWhile isBare))), rest.dropWhile isBare)
  else (afterNewline? (c :: rest)).map fun after ↦ (some .newline, after)

/-- The tokens of a document. The count bounds their number and that of the spaces and comments
between them. -/
def tokens? : Nat → List Char → Option (List Token)
  | _, [] => some []
  | 0, _ => none
  | count + 1, c :: cs => do
    let (token, rest) ← token? c cs
    let more ← tokens? count rest
    return token.toList ++ more

/-- A key with dots, and the tokens after it. -/
def key? : List Token → Option (List String × List Token)
  | .bare word :: rest => after word rest
  | .quoted text false :: rest => after text rest
  | _ => none
where
  after (name : String) : List Token → Option (List String × List Token)
    | .dot :: rest => (key? rest).map fun key ↦ (name :: key.1, key.2)
    | rest => some ([name], rest)

/-- A value that is no table with something in it. -/
def flatValue? : List Token → Option SettingValue
  | [.quoted text _] => some (.text text)
  | [.bare "true"] => some (.flag true)
  | [.bare "false"] => some (.flag false)
  | [.emptyArray] => some (.list [])
  | [.openBrace, .closeBrace] => some (.table [])
  | _ => none

/-- The value of an assignment: flat, or a table with one flat value. -/
def value? (tokens : List Token) : Option SettingValue :=
  match flatValue? tokens, tokens with
  | some value, _ => some value
  | none, .openBrace :: inner =>
    match key? inner with
    | some ([name], .equals :: rest) =>
      if rest.getLast? = some .closeBrace then
        (flatValue? rest.dropLast).map fun value ↦ .table [(name, value)]
      else none
    | _ => none
  | none, _ => none

inductive Statement where
  | header (path : List String)
  | assignment (path : List String) (value : SettingValue)
  deriving Repr

/-- The statement on a line, if the line has one. -/
def statement? : List Token → Option (Option Statement)
  | [] => some none
  | .openBracket :: rest =>
    match key? rest with
    | some (path, [.closeBracket]) => some (some (.header path))
    | _ => none
  | line =>
    match key? line with
    | some (path, .equals :: rest) => (value? rest).map fun value ↦ some (.assignment path value)
    | _ => none

/-- What is known at a path. -/
inductive Standing where
  | value (value : SettingValue)
  /-- A table that is known from the header of a table within it. -/
  | implied
  /-- A table that is known from the dots of a key. -/
  | dotted
  /-- A table with a header of its own. -/
  | declared
  deriving Repr

def Standing.isValue : Standing → Bool
  | value _ => true
  | _ => false

/-- The document as far as it has been entered. -/
abbrev Entered := List (List String × Standing)

/-- The paths of the tables around a path, the outermost first. -/
def around (path : List String) : List (List String) :=
  (List.range (path.length - 1)).map fun depth ↦ path.take (depth + 1)

/-- Enters a table around the table of a header. -/
def imply? (entered : Entered) (path : List String) : Option Entered :=
  match entered.lookup path with
  | none => some (entered ++ [(path, .implied)])
  | some standing => if standing.isValue then none else some entered

/-- Enters the table of a header, which must have had none before. -/
def declare? (entered : Entered) (path : List String) : Option Entered := do
  let entered ← (around path).foldlM imply? entered
  match entered.lookup path with
  | none => return entered ++ [(path, .declared)]
  | some .implied =>
    return entered.map fun (other, standing) ↦
      if other = path then (other, .declared) else (other, standing)
  | some _ => none

/-- Enters a table that the dots of a key tell. -/
def dot? (entered : Entered) (path : List String) : Option Entered :=
  match entered.lookup path with
  | none => some (entered ++ [(path, .dotted)])
  | some .dotted => some entered
  | some _ => none

/-- Enters a value under a key in a table. -/
def assign? (table : List String) (entered : Entered) (path : List String) (value : SettingValue) :
    Option Entered := do
  let entered ← ((around path).map (table ++ ·)).foldlM dot? entered
  match entered.lookup (table ++ path) with
  | none => return entered ++ [(table ++ path, .value value)]
  | some _ => none

/-- Enters statements; the table is the one whose header was read last. -/
def enter? (table : List String) (entered : Entered) : List Statement → Option Entered
  | [] => some entered
  | .header path :: rest => do enter? path (← declare? entered path) rest
  | .assignment path value :: rest => do enter? table (← assign? table entered path value) rest

/-- The value at a path below the top level. -/
def innerValue (entered : Entered) (path : List String) : Standing → SettingValue
  | .value value => value
  | _ =>
    if entered.any fun (other, _) ↦ path.length < other.length ∧ path.isPrefixOf other then .other
    else .table []

/-- The value at a path of the top level. -/
def outerValue (entered : Entered) (name : String) : Standing → SettingValue
  | .value value => value
  | _ =>
    .table <| entered.filterMap fun (path, standing) ↦ match path with
      | [first, second] =>
        if first = name then some (second, innerValue entered path standing) else none
      | _ => none

/-- The settings of a document by name. -/
def settings? (document : String) : Option (List (String × SettingValue)) := do
  let cs := match document.toList with
    | '\ufeff' :: rest => rest
    | cs => cs
  let tokens ← tokens? cs.length cs
  let statements ← (tokens.splitOn .newline).mapM statement?
  let entered ← enter? [] [] (statements.filterMap id)
  return entered.filterMap fun (path, standing) ↦ match path with
    | [name] => some (name, outerValue entered name standing)
    | _ => none

end LocalizedAccessors.Toml
