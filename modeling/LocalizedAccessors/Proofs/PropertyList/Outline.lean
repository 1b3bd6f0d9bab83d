import LocalizedAccessors.Proofs.Markup.Continuation
import LocalizedAccessors.PropertyList.Read

/-!
# The outline of property lists

Which events make a property list, whatever tags look like in detail: every element ends with its
own end tag, keys and values take turns in a dictionary, and there are no tags within keys, strings
and elements that are passed over. Beside it stand the lapses: what the reading of a property list
takes although it has no place there.
-/

namespace LocalizedAccessors.PropertyList

open Markup (Bytes Event Document ascii isSpace)

namespace Outline

/-! ## Elements -/

/-- Whether there are no tags among some events. -/
def Tagless (events : List Event) : Prop := ∀ event ∈ events, event.isTag = false

/-- Some events between the tags of an element. -/
def enclosed (name : Bytes) (events : List Event) : List Event :=
  .start name :: events ++ [.close name]

/-- The content of a key or a string, and its text: runs of text with their references resolved, and
character data. -/
inductive Characters : List Event → String → Prop where
  | nil : Characters [] ""
  | text {events : List Event} {content more : String} {bytes : Bytes}
      (before : Characters events content) (resolved : Markup.unescape bytes = .ok more) :
      Characters (events ++ [.text bytes]) (content ++ more)
  | characterData {events : List Event} {content : String} (bytes : Bytes)
      (before : Characters events content) :
      Characters (events ++ [.characterData bytes]) (content ++ Text.Utf8.decodeLenient bytes)
  | other {events : List Event} {content : String} (before : Characters events content) :
      Characters (events ++ [.other]) content

inductive Key : List Event → String → Prop where
  | empty : Key [.empty (ascii "key")] ""
  | full {events : List Event} {content : String} (characters : Characters events content) :
      Key (enclosed (ascii "key") events) content

/-- Whether an element of this name is none of those that are told apart. -/
def IsOther (name : Bytes) : Prop := name ∉ ["key", "string", "dict", "array"].map ascii

mutual

/-- An element that is a value. -/
inductive Value : List Event → PropertyList → Prop where
  | empty {name : Bytes} (noKey : name ≠ ascii "key") : Value [.empty name] (ofEmpty name)
  | string {events : List Event} {content : String} (characters : Characters events content) :
      Value (enclosed (ascii "string") events) (.string content)
  | dict {events : List Event} {pairs : List (String × PropertyList)}
      (members : Members events pairs) : Value (enclosed (ascii "dict") events) (.dict pairs)
  | array {events : List Event} {items : List PropertyList} (elements : Items events items) :
      Value (enclosed (ascii "array") events) (.array items)
  | other {name : Bytes} {events : List Event} (isOther : IsOther name)
      (tagless : Tagless events) : Value (enclosed name events) .other

/-- The content of a dictionary: keys and values by turns. -/
inductive Members : List Event → List (String × PropertyList) → Prop where
  | nil : Members [] []
  | between {events : List Event} {pairs : List (String × PropertyList)} {event : Event}
      (before : Members events pairs) (noTag : event.isTag = false) :
      Members (events ++ [event]) pairs
  | entry {events named between element : List Event} {pairs : List (String × PropertyList)}
      {key : String} {value : PropertyList} (before : Members events pairs)
      (isKey : Key named key) (tagless : Tagless between) (isValue : Value element value) :
      Members (events ++ named ++ between ++ element) (pairs ++ [(key, value)])

/-- The content of an array. -/
inductive Items : List Event → List PropertyList → Prop where
  | nil : Items [] []
  | between {events : List Event} {items : List PropertyList} {event : Event}
      (before : Items events items) (noTag : event.isTag = false) : Items (events ++ [event]) items
  | item {events element : List Event} {items : List PropertyList} {value : PropertyList}
      (before : Items events items) (isValue : Value element value) :
      Items (events ++ element) (items ++ [value])

end

/-! ## Documents -/

/-- Whether an event may stand before the root: blanks, what belongs to no element, and start tags
of the element around the root. -/
def leads : Event → Bool
  | .start name => name = ascii "plist"
  | .text content => content.all isSpace
  | .other => true
  | _ => false

/-- Whether some bytes are a document that ends with its root, a dictionary of these rules. -/
def IsDocument (bytes : Bytes) (rules : List (String × PropertyList)) : Prop :=
  ∃ leading root, Document.ofBytes bytes = ⟨leading ++ root, none⟩ ∧
    (∀ event ∈ leading, leads event = true) ∧ Value root (.dict rules)

/-- A value begins and ends with a tag. -/
theorem Value.exists_head {events : List Event} {value : PropertyList}
    (isValue : Value events value) :
    ∃ first others, events = first :: others ∧ first.isText = false := by
  cases isValue with
  | empty => exact ⟨_, _, rfl, rfl⟩
  | string | dict | array | other => exact ⟨_, _, rfl, rfl⟩

theorem Value.exists_getLast? {events : List Event} {value : PropertyList}
    (isValue : Value events value) :
    ∃ last, events.getLast? = some last ∧ last.isText = false := by
  cases isValue with
  | empty => exact ⟨_, rfl, rfl⟩
  | string | dict | array | other => exact ⟨_, List.getLast?_concat, rfl⟩

end Outline

/-! ## Lapses -/

/-- Something that is read although it has no place in a property list. -/
inductive Lapse where
  /-- Before the root: text that is not blank, or character data. -/
  | textBeforeRoot
  | endBeforeRoot
  /-- A start tag or an empty element within a key, a string or an element that is passed over. -/
  | nestedTag
  /-- Another key, or the end of the dictionary, where a value should stand. -/
  | keyWithoutValue
  | keyOutsideDictionary
  deriving DecidableEq, Repr

def State.lapse? (state : State) (event : Event) : Option Lapse :=
  match state, event with
  | .beforeRoot, .start name | .beforeRoot, .empty name
  | .within (.array _ :: _), .start name | .within (.array _ :: _), .empty name =>
    if name = ascii "key" then some .keyOutsideDictionary else none
  | .beforeRoot, .close _ => some .endBeforeRoot
  | .beforeRoot, .text content => if content.all isSpace then none else some .textBeforeRoot
  | .beforeRoot, .characterData _ => some .textBeforeRoot
  | .within (.dict _ (some _) :: _), .start name | .within (.dict _ (some _) :: _), .empty name =>
    if name = ascii "key" then some .keyWithoutValue else none
  | .within (.dict _ (some _) :: _), .close _ => some .keyWithoutValue
  | .within (.text .. :: _), .start _ | .within (.text .. :: _), .empty _
  | .within (.skipped .. :: _), .start _ | .within (.skipped .. :: _), .empty _ => some .nestedTag
  | _, _ => none

/-- The lapses in some events up to the end of the root. -/
def State.lapses (state : State) : List Event → List Lapse
  | [] => []
  | event :: rest =>
    match state with
    | .finished _ => []
    | _ =>
      (state.lapse? event).toList ++
        match step state event with
        | .ok after => after.lapses rest
        | .error _ => []

def lapses (bytes : Bytes) : List Lapse := State.beforeRoot.lapses (Document.ofBytes bytes).events

end LocalizedAccessors.PropertyList
