import LocalizedAccessors.Markup.Event
import Mathlib.Data.Bool.AllAny

/-!
# The grammar of markup

Tags, comments, instructions, character data sections and document type declarations as data, and
how each is written. What a part must not contain is part of its type. The content of a construct is
all between its `<` and its last `>`.
-/

namespace LocalizedAccessors.Markup

/-- A construct with its angle brackets. -/
def bracketed (content : Bytes) : Bytes := byte '<' :: (content ++ [byte '>'])

structure Name where
  bytes : Bytes
  ne_nil : bytes ≠ []
  plain : ∀ b ∈ bytes, isSpace b = false ∧ b ∉ ascii "<>/\"'"
  opening : ∀ b ∈ bytes.head?, b ∉ ascii "!?"

/-- The name with these characters, none of which has a meaning in markup. -/
def Name.ofText (text : String) (ne_nil : ascii text ≠ [])
    (h : (ascii text).all
      (fun b ↦ isSpace b = false ∧ b ∉ ascii "<>/\"'" ∧ b ∉ ascii "!?") = true) : Name where
  bytes := ascii text
  ne_nil := ne_nil
  plain b hb :=
    have hb := List.all_iff_forall_prop.1 h b hb
    ⟨hb.1, hb.2.1⟩
  opening b hb := (List.all_iff_forall_prop.1 h b (List.mem_of_mem_head? hb)).2.2

/-- A piece of what stands between the name and the end of a tag. -/
inductive AttributePiece where
  | plain (b : UInt8) (outside : b ∉ ascii ">\"'")
  | quoted (mark : UInt8) (isMark : mark ∈ ascii "\"'") (body : Bytes) (unmarked : mark ∉ body)

def AttributePiece.written : AttributePiece → Bytes
  | plain b _ => [b]
  | quoted mark _ body _ => mark :: (body ++ [mark])

/-- What stands behind the name of a tag: nothing, or something set apart by a blank, which does not
end with a slash. -/
structure Attributes where
  pieces : List AttributePiece
  opening : ∀ b ∈ (pieces.flatMap AttributePiece.written).head?, isSpace b = true
  ending : (pieces.flatMap AttributePiece.written).getLast? ≠ some (byte '/')

def Attributes.written (attributes : Attributes) : Bytes :=
  attributes.pieces.flatMap AttributePiece.written

def Attributes.none : Attributes := ⟨[], by simp, by simp⟩

def startContent (name : Name) (attributes : Attributes) : Bytes :=
  name.bytes ++ attributes.written

/-- The content of a tag that opens and closes an element at once. -/
def emptyContent (name : Name) (attributes : Attributes) : Bytes :=
  startContent name attributes ++ [byte '/']

/-- Blanks, which may follow the name in an end tag. -/
structure Blanks where
  bytes : Bytes
  isSpace : ∀ b ∈ bytes, isSpace b = true

def endContent (name : Name) (blanks : Blanks) : Bytes := byte '/' :: (name.bytes ++ blanks.bytes)

/-- Something that says nothing about the elements around it. -/
inductive Remark where
  | comment (body : Bytes) (unclosed : ¬ascii "-->" <:+: body)
  /-- A processing instruction. The declaration at the beginning of a document looks like one. -/
  | instruction (body : Bytes) (unclosed : ¬ascii "?>" <:+: byte '?' :: body)

def Remark.content : Remark → Bytes
  | comment body _ => ascii "!--" ++ body ++ ascii "--"
  | instruction body _ => byte '?' :: (body ++ [byte '?'])

def Remark.written (remark : Remark) : Bytes := bracketed remark.content

/-- The content of a section of character data. -/
structure Section where
  body : Bytes
  unclosed : ¬ascii "]]>" <:+: body

def Section.content (characters : Section) : Bytes :=
  ascii "![CDATA[" ++ characters.body ++ ascii "]]"

def Section.written (characters : Section) : Bytes := bracketed characters.content

/-- The declaration of a document type. Its angle brackets are balanced, those in quotes
included. -/
structure Doctype where
  body : Bytes
  named : ∃ b ∈ body, isSpace b = false
  nested : ∀ front, front ++ [byte '>'] <+: body → front.count (byte '>') < front.count (byte '<')
  balanced : body.count (byte '<') = body.count (byte '>')

def Doctype.content (doctype : Doctype) : Bytes := ascii "!DOCTYPE" ++ doctype.body

def Doctype.written (doctype : Doctype) : Bytes := bracketed doctype.content

end LocalizedAccessors.Markup
