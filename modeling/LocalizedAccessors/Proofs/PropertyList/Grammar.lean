import LocalizedAccessors.Proofs.Markup.Glyph
import LocalizedAccessors.Proofs.Markup.Grammar
import LocalizedAccessors.PropertyList.Value

/-!
# The grammar of property lists

Property lists as they can be written in XML, with the value of every element. Elements are trees of
any depth; what stands between them, how texts are written and how tags are laid out is part of the
tree. Every value can be written.
-/

namespace LocalizedAccessors.PropertyList

open Markup (Bytes byte ascii bracketed isSpace Name Attributes Blanks Remark Section Doctype Glyph)

/-! ## Between elements and in texts -/

/-- A piece of what may stand between elements. -/
inductive Filler where
  | blank (b : UInt8) (isBlank : isSpace b = true)
  | remark (note : Remark)

def Filler.written : Filler → Bytes
  | .blank b _ => [b]
  | .remark note => note.written

abbrev Gap := List Filler

def Gap.written (gap : Gap) : Bytes := gap.flatMap Filler.written

/-- A piece of the text of a key or a string. -/
inductive Segment where
  | glyph (character : Glyph)
  | characterData (chars : List Char)
      (unclosed : ¬ascii "]]>" <:+: chars.flatMap Text.Utf8.encodeChar)
  | remark (note : Remark)

namespace Segment

def written : Segment → Bytes
  | .glyph character => character.written
  | .characterData chars unclosed => Section.written ⟨chars.flatMap Text.Utf8.encodeChar, unclosed⟩
  | .remark note => note.written

def meaning : Segment → List Char
  | .glyph character => [character.meaning]
  | .characterData chars _ => chars
  | .remark _ => []

end Segment

/-- The text that some segments make. -/
def Segment.text (segments : List Segment) : String :=
  String.ofList (segments.flatMap Segment.meaning)

/-- A piece of what is passed over: of the content of an element, or of what a document type leaves
behind. -/
inductive Scrap where
  | plain (b : UInt8) (outside : b ≠ byte '<')
  | characterData (characters : Section)
  | remark (note : Remark)

def Scrap.written : Scrap → Bytes
  | .plain b _ => [b]
  | .characterData characters => characters.written
  | .remark note => note.written

/-! ## Elements -/

def keyName : Name := Name.ofText "key" (by decide) (by decide)

def stringName : Name := Name.ofText "string" (by decide) (by decide)

def dictName : Name := Name.ofText "dict" (by decide) (by decide)

def arrayName : Name := Name.ofText "array" (by decide) (by decide)

def wrapperName : Name := Name.ofText "plist" (by decide) (by decide)

/-- The name of an element that is passed over. -/
structure OtherName where
  name : Name
  other : name.bytes ∉ [keyName, stringName, dictName, arrayName].map Name.bytes

/-- The layout of the tags around some content. -/
structure Shell where
  attributes : Attributes
  blanks : Blanks

def Shell.around (shell : Shell) (name : Name) (content : Bytes) : Bytes :=
  bracketed (Markup.startContent name shell.attributes) ++ content ++
    bracketed (Markup.endContent name shell.blanks)

def emptyTag (name : Name) (attributes : Attributes) : Bytes :=
  bracketed (Markup.emptyContent name attributes)

inductive Key where
  | empty (attributes : Attributes)
  | full (shell : Shell) (segments : List Segment)

namespace Key

def written : Key → Bytes
  | empty attributes => emptyTag keyName attributes
  | full shell segments => shell.around keyName (segments.flatMap Segment.written)

def meaning : Key → String
  | empty _ => ""
  | full _ segments => Segment.text segments

end Key

/-- What an element without content can be. -/
inductive Kind where
  | string
  | dict
  | array
  | other (name : OtherName)

namespace Kind

def name : Kind → Name
  | string => stringName
  | dict => dictName
  | array => arrayName
  | other name => name.name

def meaning : Kind → PropertyList
  | string => .string ""
  | dict => .dict []
  | array => .array []
  | other _ => .other

end Kind

mutual

/-- The element of a value. -/
inductive Element where
  | empty (kind : Kind) (attributes : Attributes)
  | string (shell : Shell) (segments : List Segment)
  | dict (shell : Shell) (members : Members)
  | array (shell : Shell) (items : Items)
  | other (name : OtherName) (shell : Shell) (scraps : List Scrap)

/-- The keys and values in a dictionary, with what stands between them. -/
inductive Members where
  | nil (gap : Gap)
  | cons (gap : Gap) (key : Key) (between : Gap) (value : Element) (rest : Members)

/-- The elements in an array, with what stands between them. -/
inductive Items where
  | nil (gap : Gap)
  | cons (gap : Gap) (item : Element) (rest : Items)

end

def Element.name : Element → Name
  | .empty kind _ => kind.name
  | .string .. => stringName
  | .dict .. => dictName
  | .array .. => arrayName
  | .other name .. => name.name

mutual

def Element.written : Element → Bytes
  | .empty kind attributes => emptyTag kind.name attributes
  | .string shell segments => shell.around stringName (segments.flatMap Segment.written)
  | .dict shell members => shell.around dictName members.written
  | .array shell items => shell.around arrayName items.written
  | .other name shell scraps => shell.around name.name (scraps.flatMap Scrap.written)

def Members.written : Members → Bytes
  | .nil gap => gap.written
  | .cons gap key between value rest =>
    gap.written ++ key.written ++ between.written ++ value.written ++ rest.written

def Items.written : Items → Bytes
  | .nil gap => gap.written
  | .cons gap item rest => gap.written ++ item.written ++ rest.written

end

mutual

def Element.meaning : Element → PropertyList
  | .empty kind _ => kind.meaning
  | .string _ segments => .string (Segment.text segments)
  | .dict _ members => .dict members.meaning
  | .array _ items => .array items.meaning
  | .other .. => .other

def Members.meaning : Members → List (String × PropertyList)
  | .nil _ => []
  | .cons _ key _ value rest => (key.meaning, value.meaning) :: rest.meaning

def Items.meaning : Items → List PropertyList
  | .nil _ => []
  | .cons _ item rest => item.meaning :: rest.meaning

end

/-! ## Documents -/

/-- A piece of what may stand before the root. Where a document type quotes an unbalanced `>`, it
may be taken to end there, and all up to its true end is passed over if every `<` of it begins a
remark or a section of character data. -/
inductive Preamble where
  | filler (piece : Filler)
  | doctype (declaration : Doctype) (stray : List Scrap)

def Preamble.written : Preamble → Bytes
  | .filler piece => piece.written
  | .doctype declaration stray => declaration.written ++ stray.flatMap Scrap.written

/-- A dictionary at the root. -/
inductive Root where
  | empty (attributes : Attributes)
  | full (shell : Shell) (members : Members)

namespace Root

def element : Root → Element
  | empty attributes => .empty .dict attributes
  | full shell members => .dict shell members

def rules : Root → List (String × PropertyList)
  | empty _ => []
  | full _ members => members.meaning

end Root

/-- A property list as it is written up to the end of its root. -/
structure Serialization where
  /-- Whether a byte order mark comes first. -/
  marked : Bool
  prolog : List Preamble
  /-- The start tag around the root, if there is one, and what stands behind it. -/
  wrapper : Option (Attributes × Gap)
  root : Root

namespace Serialization

def mark (serialization : Serialization) : Bytes :=
  if serialization.marked then Markup.byteOrderMark else []

def opening (serialization : Serialization) : Bytes :=
  match serialization.wrapper with
  | some (attributes, gap) =>
    bracketed (Markup.startContent wrapperName attributes) ++ gap.written
  | none => []

/-- All that follows the byte order mark. -/
def body (serialization : Serialization) : Bytes :=
  serialization.prolog.flatMap Preamble.written ++
    (serialization.opening ++ serialization.root.element.written)

def written (serialization : Serialization) : Bytes := serialization.mark ++ serialization.body

def rules (serialization : Serialization) : List (String × PropertyList) :=
  serialization.root.rules

end Serialization

/-! ## Every value can be written -/

/-- Tags without anything but their names. -/
def plainShell : Shell := ⟨Attributes.none, ⟨[], by simp⟩⟩

/-- A character, written raw unless it must not be. -/
def plainGlyph (c : Char) : Glyph :=
  if hlt : c = '<' then .named .lt
  else if hamp : c = '&' then .named .amp
  else .raw c ⟨hlt, hamp⟩

theorem meaning_plainGlyph (c : Char) : (plainGlyph c).meaning = c := by
  unfold plainGlyph
  split
  · next hlt => exact hlt.symm
  · split
    · next hamp => exact hamp.symm
    · rfl

def plainSegments (text : String) : List Segment := text.toList.map fun c ↦ .glyph (plainGlyph c)

theorem text_plainSegments (text : String) : Segment.text (plainSegments text) = text := by
  simp [Segment.text, plainSegments, List.flatMap_map, Segment.meaning, meaning_plainGlyph]

/-- The name of some element that is passed over. -/
def trueName : OtherName := ⟨Name.ofText "true" (by decide) (by decide), by decide⟩

mutual

def Element.ofValue : PropertyList → Element
  | .string text => .string plainShell (plainSegments text)
  | .dict pairs => .dict plainShell (Members.ofPairs pairs)
  | .array items => .array plainShell (Items.ofValues items)
  | .other => .empty (.other trueName) Attributes.none

def Members.ofPairs : List (String × PropertyList) → Members
  | [] => .nil []
  | (key, value) :: rest =>
    .cons [] (.full plainShell (plainSegments key)) [] (Element.ofValue value)
      (Members.ofPairs rest)

def Items.ofValues : List PropertyList → Items
  | [] => .nil []
  | value :: rest => .cons [] (Element.ofValue value) (Items.ofValues rest)

end

mutual

theorem meaning_ofValue (value : PropertyList) : (Element.ofValue value).meaning = value := by
  cases value with
  | string text => rw [Element.ofValue, Element.meaning, text_plainSegments]
  | dict pairs => rw [Element.ofValue, Element.meaning, meaning_ofPairs pairs]
  | array items => rw [Element.ofValue, Element.meaning, meaning_ofValues items]
  | other => rfl

theorem meaning_ofPairs (pairs : List (String × PropertyList)) :
    (Members.ofPairs pairs).meaning = pairs := by
  match pairs with
  | [] => rfl
  | (key, value) :: rest =>
    rw [Members.ofPairs, Members.meaning, Key.meaning, text_plainSegments, meaning_ofValue value,
      meaning_ofPairs rest]

theorem meaning_ofValues (values : List PropertyList) : (Items.ofValues values).meaning = values := by
  match values with
  | [] => rfl
  | value :: rest =>
    rw [Items.ofValues, Items.meaning, meaning_ofValue value, meaning_ofValues rest]

end

/-- A plain form of some rules. -/
def Serialization.ofRules (rules : List (String × PropertyList)) : Serialization :=
  ⟨false, [], none, .full plainShell (Members.ofPairs rules)⟩

theorem rules_ofRules (rules : List (String × PropertyList)) :
    (Serialization.ofRules rules).rules = rules := meaning_ofPairs rules

end LocalizedAccessors.PropertyList
