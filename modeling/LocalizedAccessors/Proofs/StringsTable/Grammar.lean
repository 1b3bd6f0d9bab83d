import LocalizedAccessors.StringsTable.Statement

/-!
# The grammar of a strings table

Documents as data: statements with tokens and whatever may stand between tokens. A document knows
how it is written and which pairs it lists, and both are told without reading. What a part of a
document must not contain is part of its type, so every value is a document that can be written.
-/

namespace LocalizedAccessors.StringsTable

/-- A piece of what may stand between tokens. -/
inductive Trivium where
  | blank (c : Char) (isBlank : Text.isBlank c = true)
  /-- A comment up to the end of the line. -/
  | line (body : List Char) (inLine : '\n' ∉ body)
  /-- A comment between a slash with an asterisk and an asterisk with a slash. -/
  | block (body : List Char) (unclosed : ¬['*', '/'] <:+: body)

def Trivium.written : Trivium → List Char
  | blank c _ => [c]
  | line body _ => '/' :: '/' :: (body ++ ['\n'])
  | block body _ => '/' :: '*' :: (body ++ ['*', '/'])

/-- All that stands between two tokens. -/
abbrev Gap := List Trivium

def Gap.written (gap : Gap) : List Char := gap.flatMap Trivium.written

/-- A hexadecimal digit, which can be written in either case. -/
structure HexDigit where
  value : Fin 16
  upper : Bool

def HexDigit.written (digit : HexDigit) : Char :=
  if digit.upper then (Nat.digitChar digit.value).toUpper else Nat.digitChar digit.value

/-- The number that some digits make when they follow a number. -/
def HexDigit.number (front : Nat) (digits : List HexDigit) : Nat :=
  digits.foldl (fun number digit ↦ 16 * number + digit.value) front

/-- Four hexadecimal digits that number a character. -/
structure CharacterCode where
  digits : List HexDigit
  length_eq : digits.length = 4
  character : Char
  number_eq : HexDigit.number 0 digits = character.toNat

/-- One character of a quoted string, either raw or escaped. -/
inductive Glyph where
  | raw (c : Char) (plain : c ≠ '\"' ∧ c ≠ '\\')
  | lineFeed
  | carriageReturn
  | tab
  | code (letter : Char) (isLetter : letter = 'U' ∨ letter = 'u') (number : CharacterCode)
  /-- A backslash before a quote, a backslash or any character that has no other meaning there. -/
  | other (c : Char) (meaningless : c ∉ ['n', 'r', 't', 'U', 'u'])

namespace Glyph

def written : Glyph → List Char
  | raw c _ => [c]
  | lineFeed => ['\\', 'n']
  | carriageReturn => ['\\', 'r']
  | tab => ['\\', 't']
  | code letter _ number => '\\' :: letter :: number.digits.map HexDigit.written
  | other c _ => ['\\', c]

def meaning : Glyph → Char
  | raw c _ => c
  | lineFeed => '\n'
  | carriageReturn => '\r'
  | tab => '\t'
  | code _ _ number => number.character
  | other c _ => c

end Glyph

/-- A word that can stand without quotes. -/
structure Word where
  chars : List Char
  ne_nil : chars ≠ []
  inside : ∀ c ∈ chars, Text.isBlank c = false ∧ c ≠ '=' ∧ c ≠ ';'
  /-- The word begins neither like a quoted string nor like a comment. -/
  opening : ∀ opener ∈ [['\"'], ['/', '/'], ['/', '*']], ¬opener <+: chars

inductive Token where
  | quoted (glyphs : List Glyph)
  | bare (word : Word)

namespace Token

def written : Token → List Char
  | quoted glyphs => '\"' :: (glyphs.flatMap Glyph.written ++ ['\"'])
  | bare word => word.chars

def meaning : Token → List Char
  | quoted glyphs => glyphs.map Glyph.meaning
  | bare word => word.chars

/-- Whether a token can be followed by a gap. After a bare word comes its delimiter or a blank. -/
def SetApart : Token → Gap → Prop
  | quoted _, _ => True
  | bare _, gap => ∀ first ∈ gap.head?, ∃ c isBlank, first = .blank c isBlank

end Token

/-- A statement with everything around its tokens. -/
structure Assignment where
  leading : Gap
  key : Token
  afterKey : Gap
  beforeValue : Gap
  value : Token
  afterValue : Gap
  key_setApart : key.SetApart afterKey
  value_setApart : value.SetApart afterValue

namespace Assignment

def written (assignment : Assignment) : List Char :=
  assignment.leading.written ++ assignment.key.written ++ assignment.afterKey.written ++ '=' ::
    (assignment.beforeValue.written ++ assignment.value.written ++ assignment.afterValue.written ++
      [';'])

/-- The value without its line breaks. -/
def line (assignment : Assignment) : List Char :=
  assignment.value.meaning.filter fun c ↦ c ≠ '\n' ∧ c ≠ '\r'

/-- The pair that a statement stands for. -/
def pair (assignment : Assignment) : Pair :=
  ⟨String.ofList assignment.key.meaning, String.ofList assignment.line⟩

end Assignment

structure Document where
  /-- The number of byte order marks in front. -/
  marks : Nat
  assignments : List Assignment
  trailing : Gap
  unmarked : (assignments.flatMap Assignment.written ++ trailing.written).head? ≠ some '\ufeff'

namespace Document

def written (document : Document) : List Char :=
  List.replicate document.marks '\ufeff' ++
    (document.assignments.flatMap Assignment.written ++ document.trailing.written)

def pairs (document : Document) : List Pair := document.assignments.map Assignment.pair

end Document

end LocalizedAccessors.StringsTable
