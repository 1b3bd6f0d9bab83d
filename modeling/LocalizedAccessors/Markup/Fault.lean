import LocalizedAccessors.Text.Utf8

/-!
# Faults of markup

Everything that can be wrong with an XML document as far as it is checked here, and the wording of
each fault. Attributes are not looked at, so they have no faults.
-/

namespace LocalizedAccessors.Markup

abbrev Bytes := List UInt8

/-- The byte of an ASCII character. -/
def byte (c : Char) : UInt8 := UInt8.ofNat c.toNat

/-- The bytes of an ASCII text. -/
def ascii (text : String) : Bytes := text.toList.map byte

/-- Why a reference such as `&#65;` stands for no character. -/
inductive CharacterFault where
  | signed
  | noDigits
  | invalidDigit
  | tooLarge
  | notScalar (code : Nat)
  | null
  deriving DecidableEq, Repr

def CharacterFault.message : CharacterFault → String
  | signed => "unexpected number sign"
  | noDigits => "cannot parse integer from empty string"
  | invalidDigit => "invalid digit found in string"
  | tooLarge => "number too large to fit in target type"
  | notScalar code => "`" ++ toString code ++ "` is not a valid codepoint"
  | null => "0x0 character is not permitted in XML"

inductive Fault where
  | unknownMarkup
  | unclosedInstruction
  | unclosedComment
  | unclosedDoctype
  | unclosedCharacterData
  | unclosedTag
  | mismatchedEnd (expected found : Bytes)
  | unmatchedEnd (found : Bytes)
  /-- The input ends within an element that is skipped as a whole. -/
  | missingEnd (name : Bytes)
  | missingDoctypeName
  | encoding (fault : Text.Utf8.Fault)
  /-- A named reference that is not predefined, with the bytes where its name begins and ends. -/
  | unknownEntity (first last : Nat) (name : String)
  /-- An ampersand without a semicolon, with the bytes where it stands and where the text ends. -/
  | unterminatedEntity (first last : Nat)
  | character (fault : CharacterFault)
  deriving DecidableEq, Repr

/-- A name as it is shown; one that is no UTF-8 is shown as empty. -/
def shownName (name : Bytes) : String :=
  match Text.Utf8.decode name with
  | .ok text => text
  | .error _ => ""

def closeTag (name : String) : String := "`</" ++ name ++ ">`"

def range (first last : Nat) : String := toString first ++ ".." ++ toString last

def syntaxMessage (text : String) : String := "syntax error: " ++ text

def unclosedMessage (what mark : String) : String :=
  syntaxMessage (what ++ " not closed: `" ++ mark ++ "` not found before end of input")

def illFormedMessage (text : String) : String := "ill-formed document: " ++ text

def encodingMessage (fault : Text.Utf8.Fault) : String :=
  "cannot decode input using UTF-8: " ++ fault.message

def Fault.message : Fault → String
  | unknownMarkup => syntaxMessage "unknown or missed symbol in markup"
  | unclosedInstruction => unclosedMessage "processing instruction or xml declaration" "?>"
  | unclosedComment => unclosedMessage "comment" "-->"
  | unclosedDoctype => unclosedMessage "DOCTYPE" ">"
  | unclosedCharacterData => unclosedMessage "CDATA" "]]>"
  | unclosedTag => unclosedMessage "tag" ">"
  | mismatchedEnd expected found =>
    illFormedMessage <| "expected " ++ closeTag (shownName expected) ++ ", but "
      ++ closeTag (shownName found) ++ " was found"
  | unmatchedEnd found =>
    illFormedMessage <| "close tag " ++ closeTag (shownName found)
      ++ " does not match any open tag"
  | missingEnd name =>
    match Text.Utf8.decode name with
    | .ok text =>
      illFormedMessage <| "start tag not closed: " ++ closeTag text
        ++ " not found before end of input"
    | .error fault => encodingMessage fault
  | missingDoctypeName =>
    illFormedMessage "`<!DOCTYPE>` declaration does not contain a name of a document type"
  | encoding fault => encodingMessage fault
  | unknownEntity first last name =>
    "at " ++ range first last ++ ": unrecognized entity `" ++ name ++ "`"
  | unterminatedEntity first last =>
    "Error while escaping character at range " ++ range first last
      ++ ": Cannot find ';' after '&'"
  | character fault => "invalid character reference: " ++ fault.message

end LocalizedAccessors.Markup
