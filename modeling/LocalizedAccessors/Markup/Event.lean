import LocalizedAccessors.Markup.Fault

/-!
# Markup events

An XML document as a sequence of events: tags, runs of text and character data sections. Comments,
processing instructions and document type declarations are kept only as places where a run of text
ends. Every end tag has to name the element that was opened last. A document that cannot be read to
its end has the events before the fault, and the fault.

All constructs that begin with `<` end at a `>`, each at the first one that what stands before it
lets count. So they are read by one function, `upToClosing`, which is given that condition.
-/

namespace LocalizedAccessors.Markup

inductive Event where
  | start (name : Bytes)
  /-- A tag that opens and closes an element at once. -/
  | empty (name : Bytes)
  | close (name : Bytes)
  /-- A run of characters in which references are not yet resolved. -/
  | text (content : Bytes)
  | characterData (content : Bytes)
  | other
  deriving DecidableEq, Repr

/-- What begins at a `<`. -/
inductive Construct where
  | startTag
  | endTag
  | instruction
  | comment
  | characterData
  | doctype
  deriving DecidableEq, Repr

/-- The fault of a construct that does not end, or that only looks like one of its sort. -/
def Construct.unclosed : Construct → Fault
  | startTag | endTag => .unclosedTag
  | instruction => .unclosedInstruction
  | comment => .unclosedComment
  | characterData => .unclosedCharacterData
  | doctype => .unclosedDoctype

/-- The construct that begins with these bytes after its `<`. -/
def Construct.of (bytes : Bytes) : Except Fault Construct :=
  match bytes with
  | [] => .error .unclosedTag
  | b :: rest =>
    if b == byte '/' then .ok .endTag
    else if b == byte '?' then .ok .instruction
    else if b == byte '!' then
      match rest with
      | [] => .error .unknownMarkup
      | c :: _ =>
        if c == byte '[' then .ok .characterData
        else if c == byte '-' then .ok .comment
        else if c == byte 'D' || c == byte 'd' then .ok .doctype
        else .error .unknownMarkup
    else .ok .startTag

/-- The quotation mark that is still open after some bytes, of which the last comes first. -/
def openQuote (seen : Bytes) : Option UInt8 :=
  seen.foldr (fun b quote ↦ match quote with
    | none => if b == byte '\"' || b == byte '\'' then some b else none
    | some q => if b == q then none else some q) none

/-- Whether a `>` closes the construct after the bytes seen since its `<`, of which the last comes
first. -/
def Construct.closes (construct : Construct) (seen : Bytes) : Bool :=
  match construct with
  | startTag | endTag => (openQuote seen).isNone
  | instruction => seen.head? == some (byte '?')
  | comment => 5 ≤ seen.length && (ascii "--").isPrefixOf seen
  | characterData => (ascii "]]").isPrefixOf seen
  | doctype => seen.count (byte '<') == seen.count (byte '>')

/-- The bytes before the first `>` that closes, and the bytes after it. The bytes that were seen
before are given last first. -/
def upToClosing (closes : Bytes → Bool) : (seen : Bytes) → Bytes → Option (Bytes × Bytes)
  | _, [] => none
  | seen, b :: rest =>
    if b == byte '>' && closes seen then some (seen.reverse, rest)
    else upToClosing closes (b :: seen) rest

/-- The blanks within tags. -/
def isSpace (b : UInt8) : Bool :=
  b == byte ' ' || b == byte '\t' || b == byte '\r' || b == byte '\n'

/-- The name at the beginning of a tag. -/
def tagName (content : Bytes) : Bytes := content.takeWhile fun b ↦ !isSpace b

/-- The name in an end tag: all that stands between `</` and `>` less the blanks at its end, or
just as it is if there are only blanks. -/
def endName (content : Bytes) : Bytes :=
  if content.all isSpace then content else (content.reverse.dropWhile isSpace).reverse

def lowercase (b : UInt8) : UInt8 :=
  if byte 'A' ≤ b && b ≤ byte 'Z' then b + 32 else b

/-- The event of a complete construct and the elements that are open after it. -/
def Construct.event (construct : Construct) (opened : List Bytes) (content : Bytes) :
    Except Fault (Event × List Bytes) :=
  match construct with
  | startTag =>
    if content.getLast? = some (byte '/') then
      .ok (.empty (tagName content.dropLast), opened)
    else .ok (.start (tagName content), tagName content :: opened)
  | endTag =>
    let name := endName content.tail
    match opened with
    | [] => .error (.unmatchedEnd name)
    | expected :: outer =>
      if name = expected then .ok (.close name, outer) else .error (.mismatchedEnd expected name)
  | instruction =>
    if 1 < content.length then .ok (.other, opened) else .error .unclosedInstruction
  | comment =>
    if (ascii "!--").isPrefixOf content then .ok (.other, opened) else .error .unclosedComment
  | characterData =>
    if (ascii "![CDATA[").isPrefixOf content then
      .ok (.characterData (content.drop 8).dropLast.dropLast, opened)
    else .error .unclosedCharacterData
  | doctype =>
    if (ascii "!doctype").isPrefixOf (content.map lowercase) then
      if (content.drop 8).all isSpace then .error .missingDoctypeName else .ok (.other, opened)
    else .error .unclosedDoctype

/-- The construct after a `<`: its event, the elements open after it, and the rest. -/
def readConstruct (opened : List Bytes) (bytes : Bytes) :
    Except Fault (Event × List Bytes × Bytes) := do
  let construct ← Construct.of bytes
  match upToClosing construct.closes [] bytes with
  | none => .error construct.unclosed
  | some (content, rest) =>
    let (event, open') ← construct.event opened content
    return (event, open', rest)

/-- The next event, the elements open after it, and the rest; or nothing at the end. -/
def next (opened : List Bytes) (bytes : Bytes) :
    Except Fault (Option (Event × List Bytes × Bytes)) :=
  match bytes with
  | [] => .ok none
  | b :: rest =>
    if b == byte '<' then (readConstruct opened rest).map some
    else
      .ok (some (.text (bytes.takeWhile (· != byte '<')), opened,
        bytes.dropWhile (· != byte '<')))

theorem upToClosing_length_lt {closes : Bytes → Bool} {seen bytes content rest : Bytes}
    (h : upToClosing closes seen bytes = some (content, rest)) :
    rest.length < bytes.length := by
  induction bytes generalizing seen with
  | nil => simp [upToClosing] at h
  | cons b tail ih =>
    rw [upToClosing] at h
    split at h
    · simp only [Option.some.injEq, Prod.mk.injEq] at h
      simp [h.2]
    · exact Nat.lt_succ_of_lt (ih h)

theorem readConstruct_length_lt {opened open' : List Bytes} {bytes rest : Bytes} {event : Event}
    (h : readConstruct opened bytes = .ok (event, open', rest)) : rest.length < bytes.length := by
  unfold readConstruct at h
  cases hc : Construct.of bytes with
  | error fault => simp [hc, bind, Except.bind] at h
  | ok construct =>
    simp only [hc, bind, Except.bind] at h
    split at h
    · cases h
    · next content tail hup =>
      have hlt := upToClosing_length_lt hup
      split at h
      · cases h
      · simp only [pure, Except.pure, Except.ok.injEq, Prod.mk.injEq] at h
        rw [← h.2.2]
        exact hlt

/-- Every event takes some of the bytes. -/
theorem next_length_lt {opened open' : List Bytes} {bytes rest : Bytes} {event : Event}
    (h : next opened bytes = .ok (some (event, open', rest))) : rest.length < bytes.length := by
  unfold next at h
  split at h
  · simp at h
  · next b tail =>
    split at h
    · cases hr : readConstruct opened tail with
      | error fault => simp [hr, Except.map] at h
      | ok r =>
        simp only [hr, Except.map, Except.ok.injEq, Option.some.injEq] at h
        subst h
        exact Nat.lt_succ_of_lt (readConstruct_length_lt hr)
    · next hb =>
      simp only [Except.ok.injEq, Option.some.injEq, Prod.mk.injEq] at h
      rw [← h.2.2, List.dropWhile_cons_of_pos (by simp_all)]
      exact Nat.lt_succ_of_le (List.dropWhile_suffix _).length_le

/-- What a document consists of. -/
structure Document where
  events : List Event
  /-- Why there are no more events, if not because the document has ended. -/
  fault : Option Fault
  deriving DecidableEq, Repr

/-- The document that these bytes continue when the given elements are open. -/
def Document.continued (opened : List Bytes) (bytes : Bytes) : Document :=
  match _h : next opened bytes with
  | .error fault => ⟨[], some fault⟩
  | .ok none => ⟨[], none⟩
  | .ok (some (event, open', rest)) =>
    let after := continued open' rest
    ⟨event :: after.events, after.fault⟩
termination_by bytes.length
decreasing_by exact next_length_lt _h

/-- The bytes of the byte order mark in UTF-8. -/
def byteOrderMark : Bytes := [0xEF, 0xBB, 0xBF]

/-- The bytes without a byte order mark in front. -/
def withoutMark (bytes : Bytes) : Bytes :=
  if byteOrderMark.isPrefixOf bytes then bytes.drop 3 else bytes

def Document.ofBytes (bytes : Bytes) : Document := continued [] (withoutMark bytes)

end LocalizedAccessors.Markup
