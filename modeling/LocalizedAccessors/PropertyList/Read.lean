import LocalizedAccessors.Markup.Event
import LocalizedAccessors.Markup.Reference
import LocalizedAccessors.PropertyList.Value

/-!
# Reading property lists

The events of a document are fed one by one to a machine. It waits for the root; then it keeps a
stack of what is open, the innermost first: dictionaries, arrays, the texts of keys and strings,
and elements that are passed over as a whole. The value that an element makes goes to what is open
around it. Nothing after the root is looked at.
-/

namespace LocalizedAccessors.PropertyList

open Markup (Bytes Event Document ascii)

/-- Why a document is no property list with a dictionary at its root. -/
inductive Fault where
  | binary
  | noRoot
  | rootNoDict
  | unterminated (name : String)
  | valueWithoutKey
  | markup (fault : Markup.Fault)
  deriving DecidableEq, Repr

def Fault.message : Fault → String
  | binary => "invalid property list: binary property lists are not supported"
  | noRoot => "invalid property list: missing root dictionary"
  | rootNoDict => "invalid property list: root is not a dictionary"
  | unterminated name => "invalid property list: unterminated <" ++ name ++ ">"
  | valueWithoutKey => "invalid property list: dictionary value without a <key>"
  | markup fault => "XML parse error: " ++ fault.message

/-- An element whose text is read. -/
inductive TextElement where
  | key
  | string
  deriving DecidableEq, Repr

def TextElement.name : TextElement → String
  | key => "key"
  | string => "string"

/-- Something that is open. -/
inductive Frame where
  /-- A dictionary with its complete pairs and the key that waits for its value. -/
  | dict (pairs : List (String × PropertyList)) (pending : Option String)
  | array (items : List PropertyList)
  | text (element : TextElement) (content : String)
  /-- An element of no interest, and how many elements of its name are open within it. -/
  | skipped (name : Bytes) (nested : Nat)
  deriving Repr

/-- How far the reading has come. -/
inductive State where
  | beforeRoot
  /-- Within the root. The list is empty only for a moment, between the root and its value. -/
  | within (frames : List Frame)
  | finished (root : PropertyList)
  deriving Repr

/-- Hands a value to what is open around it. -/
def deliver (value : PropertyList) : List Frame → Except Fault State
  | [] => .ok (.finished value)
  | .dict pairs (some key) :: outer => .ok (.within (.dict (pairs ++ [(key, value)]) none :: outer))
  | .dict _ none :: _ => .error .valueWithoutKey
  | .array items :: outer => .ok (.within (.array (items ++ [value]) :: outer))
  | frames => .ok (.within frames)

/-- What the start tag of a value opens. -/
def Frame.opened (name : Bytes) : Frame :=
  if name = ascii "dict" then .dict [] none
  else if name = ascii "array" then .array []
  else if name = ascii "string" then .text .string ""
  else .skipped name 0

/-- The value of an element without content. -/
def ofEmpty (name : Bytes) : PropertyList :=
  if name = ascii "string" then .string ""
  else if name = ascii "dict" then .dict []
  else if name = ascii "array" then .array []
  else .other

/-- The state after an event within a dictionary. -/
def stepDict (pairs : List (String × PropertyList)) (pending : Option String)
    (outer : List Frame) : Event → Except Fault State
  | .start name =>
    if name = ascii "key" then .ok (.within (.text .key "" :: .dict pairs pending :: outer))
    else .ok (.within (Frame.opened name :: .dict pairs pending :: outer))
  | .empty name =>
    if name = ascii "key" then .ok (.within (.dict pairs (some "") :: outer))
    else deliver (ofEmpty name) (.dict pairs pending :: outer)
  | .close name =>
    if name = ascii "dict" then deliver (.dict pairs) outer
    else .ok (.within (.dict pairs pending :: outer))
  | _ => .ok (.within (.dict pairs pending :: outer))

/-- The state after an event within an array. -/
def stepArray (items : List PropertyList) (outer : List Frame) : Event → Except Fault State
  | .start name => .ok (.within (Frame.opened name :: .array items :: outer))
  | .empty name => deliver (ofEmpty name) (.array items :: outer)
  | .close name =>
    if name = ascii "array" then deliver (.array items) outer
    else .ok (.within (.array items :: outer))
  | _ => .ok (.within (.array items :: outer))

/-- The state after the end of a text. A key waits in its dictionary; a key that waited there
already is forgotten. -/
def finishText (element : TextElement) (content : String) (outer : List Frame) :
    Except Fault State :=
  match element, outer with
  | .key, .dict pairs _ :: outer => .ok (.within (.dict pairs (some content) :: outer))
  | _, _ => deliver (.string content) outer

/-- The state after an event within a key or a string. Tags other than the end tag leave no
trace in the text. -/
def stepText (element : TextElement) (content : String) (outer : List Frame) :
    Event → Except Fault State
  | .text bytes =>
    match Markup.unescape bytes with
    | .ok more => .ok (.within (.text element (content ++ more) :: outer))
    | .error fault => .error (.markup fault)
  | .characterData bytes =>
    .ok (.within (.text element (content ++ Text.Utf8.decodeLenient bytes) :: outer))
  | .close name =>
    if name = ascii element.name then finishText element content outer
    else .ok (.within (.text element content :: outer))
  | _ => .ok (.within (.text element content :: outer))

/-- The state after an event within an element of no interest. -/
def stepSkipped (skipped : Bytes) (nested : Nat) (outer : List Frame) : Event → Except Fault State
  | .start name =>
    .ok (.within (.skipped skipped (if name = skipped then nested + 1 else nested) :: outer))
  | .close name =>
    if name = skipped then
      match nested with
      | 0 => deliver .other outer
      | n + 1 => .ok (.within (.skipped skipped n :: outer))
    else .ok (.within (.skipped skipped nested :: outer))
  | _ => .ok (.within (.skipped skipped nested :: outer))

/-- The state after an event. -/
def step (state : State) (event : Event) : Except Fault State :=
  match state with
  | .beforeRoot =>
    match event with
    | .start name =>
      if name = ascii "plist" then .ok .beforeRoot else .ok (.within [Frame.opened name])
    | .empty name => .ok (.finished (ofEmpty name))
    | _ => .ok .beforeRoot
  | .within [] => .ok state
  | .within (.dict pairs pending :: outer) => stepDict pairs pending outer event
  | .within (.array items :: outer) => stepArray items outer event
  | .within (.text element content :: outer) => stepText element content outer event
  | .within (.skipped name nested :: outer) => stepSkipped name nested outer event
  | .finished _ => .ok state

/-- The state after some events, all of which are read unless the root is finished before. -/
def run (state : State) : List Event → Except Fault State
  | [] => .ok state
  | event :: rest =>
    match state with
    | .finished root => .ok (.finished root)
    | _ =>
      match step state event with
      | .ok after => run after rest
      | .error fault => .error fault

/-- The fault of a document that ends in this state. -/
def State.endFault : State → Fault
  | within (.dict .. :: _) => .unterminated "dict"
  | within (.array _ :: _) => .unterminated "array"
  | within (.text element _ :: _) => .unterminated element.name
  | within (.skipped name _ :: _) => .markup (.missingEnd name)
  | _ => .noRoot

/-- The root of a document. -/
def ofDocument (document : Document) : Except Fault PropertyList := do
  match ← run .beforeRoot document.events with
  | .finished root => return root
  | state => throw (match document.fault with
    | some fault => .markup fault
    | none => state.endFault)

/-- The pairs of the dictionary at the root of a property list. -/
def rootPairs (bytes : Bytes) : Except Fault (List (String × PropertyList)) := do
  if (ascii "bplist").isPrefixOf bytes then throw .binary
  match ← ofDocument (Document.ofBytes bytes) with
  | .dict pairs => return pairs
  | _ => throw .rootNoDict

end LocalizedAccessors.PropertyList
