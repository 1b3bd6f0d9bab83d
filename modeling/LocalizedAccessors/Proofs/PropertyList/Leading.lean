import LocalizedAccessors.Proofs.Markup.Continuation
import LocalizedAccessors.Proofs.Markup.Glyph
import LocalizedAccessors.Proofs.Markup.Tag
import LocalizedAccessors.PropertyList.Read

/-!
# What bytes lead to

The reading of a document seen from a place within it: the elements that are open for the markup and
the state of the machine. Some bytes lead from one place to another if whatever follows them is read
from there, and if a document that ends within them has no root. Bytes that lead on compose, so the
reading of a tree is told part by part.
-/

namespace LocalizedAccessors.PropertyList

open Markup (Bytes byte Event Document bracketed next next_of_ne Reads Glyph)

/-- A place within a document. -/
structure Place where
  /-- The names of the elements that are open for the markup, the innermost first. -/
  opened : List Bytes
  state : State

def State.Unfinished (state : State) : Prop := ∀ root, state ≠ .finished root

/-- The root that is read from a place, if the bytes end it. -/
def Place.outcome (place : Place) (bytes : Bytes) : Option PropertyList :=
  match run place.state (Document.continued place.opened bytes).events with
  | .ok (.finished root) => some root
  | _ => none

theorem run_cons {state : State} (h : state.Unfinished) (event : Event) (events : List Event) :
    run state (event :: events) =
      match step state event with
      | .ok after => run after events
      | .error fault => .error fault := by
  cases state with
  | finished root => exact absurd rfl (h root)
  | beforeRoot | within => rfl

section Outcome

variable {opened after : List Bytes} {state : State} {bytes rest : Bytes}

theorem outcome_finished (root : PropertyList) :
    Place.outcome ⟨opened, .finished root⟩ bytes = some root := by
  rw [Place.outcome]
  cases (Document.continued opened bytes).events <;> rfl

theorem outcome_nil (h : state.Unfinished) : Place.outcome ⟨opened, state⟩ [] = none := by
  rw [Place.outcome, Document.continued_nil, run]
  split
  · next root hroot => exact absurd (Except.ok.inj hroot) (h root)
  · rfl

theorem outcome_of_fault {fault : Markup.Fault} (h : state.Unfinished)
    (hnext : next opened bytes = .error fault) : Place.outcome ⟨opened, state⟩ bytes = none := by
  rw [Place.outcome, Document.continued_of_error hnext, run]
  split
  · next root hroot => exact absurd (Except.ok.inj hroot) (h root)
  · rfl

theorem outcome_of_event {event : Event} (h : state.Unfinished)
    (hnext : next opened bytes = .ok (some (event, after, rest))) :
    Place.outcome ⟨opened, state⟩ bytes =
      match step state event with
      | .ok reached => Place.outcome ⟨after, reached⟩ rest
      | .error _ => none := by
  rw [Place.outcome, Document.continued_of_event hnext, run_cons h]
  cases step state event <;> rfl

end Outcome

/-- Whether some bytes lead from one place to another. -/
structure Leads (start : Place) (bytes : Bytes) (goal : Place) : Prop where
  whole : ∀ rest, start.outcome (bytes ++ rest) = goal.outcome rest
  cut : ∀ front, front <+: bytes → front ≠ bytes → start.outcome front = none

namespace Leads

theorem nil (place : Place) : Leads place [] place where
  whole _ := rfl
  cut _ hfront hne := absurd (List.prefix_nil.1 hfront) hne

theorem append {start middle goal : Place} {front rest : Bytes} (hfront : Leads start front middle)
    (hrest : Leads middle rest goal) : Leads start (front ++ rest) goal where
  whole after := by rw [List.append_assoc, hfront.whole, hrest.whole]
  cut inner hinner hne := by
    obtain ⟨hwithin, hshort⟩ | ⟨deeper, rfl, hdeeper⟩ := Markup.prefix_or_eq_append hinner
    · exact hfront.cut inner hwithin hshort
    · rw [hfront.whole]
      exact hrest.cut deeper hdeeper fun heq ↦ hne (by rw [heq])

/-- A construct leads to where its event leads. -/
theorem of_reads {opened after : List Bytes} {state reached : State} {content : Bytes}
    {event : Event} (h : Reads opened content event after) (hstate : state.Unfinished)
    (hstep : step state event = .ok reached) :
    Leads ⟨opened, state⟩ (bracketed content) ⟨after, reached⟩ where
  whole rest := by
    rw [outcome_of_event hstate (h.whole rest), hstep]
  cut front hfront hne := by
    cases front with
    | nil => exact outcome_nil hstate
    | cons b front =>
      obtain ⟨rfl, htail⟩ := List.cons_prefix_cons.1 hfront
      have hwithin : front <+: content :=
        (List.prefix_concat_iff.1 htail).resolve_left fun heq ↦ hne (by rw [heq, bracketed])
      obtain ⟨fault, hfault⟩ := h.cut front hwithin
      exact outcome_of_fault hstate hfault

end Leads

/-! ## Where texts are passed over -/

/-- Whether texts, character data and what says nothing change nothing in a state. -/
structure State.Passive (state : State) : Prop where
  unfinished : state.Unfinished
  text : ∀ content, step state (.text content) = .ok state
  characterData : ∀ content, step state (.characterData content) = .ok state
  other : step state .other = .ok state

theorem passive_beforeRoot : State.beforeRoot.Passive :=
  ⟨by simp [State.Unfinished], fun _ ↦ rfl, fun _ ↦ rfl, rfl⟩

theorem passive_dict (pairs : List (String × PropertyList)) (pending : Option String)
    (outer : List Frame) : (State.within (.dict pairs pending :: outer)).Passive :=
  ⟨by simp [State.Unfinished], fun _ ↦ rfl, fun _ ↦ rfl, rfl⟩

theorem passive_array (items : List PropertyList) (outer : List Frame) :
    (State.within (.array items :: outer)).Passive :=
  ⟨by simp [State.Unfinished], fun _ ↦ rfl, fun _ ↦ rfl, rfl⟩

theorem passive_skipped (name : Bytes) (nested : Nat) (outer : List Frame) :
    (State.within (.skipped name nested :: outer)).Passive :=
  ⟨by simp [State.Unfinished], fun _ ↦ rfl, fun _ ↦ rfl, rfl⟩

theorem outcome_dropWhile {opened : List Bytes} {state : State} (h : state.Passive) (bytes : Bytes) :
    Place.outcome ⟨opened, state⟩ bytes =
      Place.outcome ⟨opened, state⟩ (bytes.dropWhile (· != byte '<')) := by
  cases bytes with
  | nil => rfl
  | cons b bytes =>
    by_cases hb : b = byte '<'
    · rw [List.dropWhile_cons_of_neg (by simpa using hb)]
    · rw [outcome_of_event h.unfinished (next_of_ne hb bytes), h.text,
        List.dropWhile_cons_of_pos (by simpa using hb)]

theorem leads_plain (opened : List Bytes) {state : State} (h : state.Passive) {b : UInt8}
    (hb : b ≠ byte '<') : Leads ⟨opened, state⟩ [b] ⟨opened, state⟩ where
  whole rest := by
    rw [outcome_dropWhile h, outcome_dropWhile h rest, List.singleton_append,
      List.dropWhile_cons_of_pos (by simpa using hb)]
  cut front hfront hne := by
    obtain heq | hnil := List.prefix_concat_iff.1 (show front <+: [] ++ [b] from hfront)
    · exact absurd heq hne
    · rw [List.prefix_nil.1 hnil, outcome_nil h.unfinished]

/-! ## Texts of keys and strings -/

section Texts

variable (opened : List Bytes) (element : TextElement) (content : String) (outer : List Frame)

theorem unfinished_text : (State.within (.text element content :: outer)).Unfinished := by
  simp [State.Unfinished]

theorem unescape_nil : Markup.unescape [] = .ok "" := by
  simp [Markup.unescape, Text.Utf8.decode, Text.Utf8.pieces, Text.Utf8.charsFrom, Except.map,
    Markup.unescapeFrom]

/-- A run of text is taken as a whole, even if it is empty. -/
theorem outcome_text (bytes : Bytes) :
    Place.outcome ⟨opened, .within (.text element content :: outer)⟩ bytes =
      (Markup.unescape (bytes.takeWhile (· != byte '<'))).toOption.bind fun more ↦
        Place.outcome ⟨opened, .within (.text element (content ++ more) :: outer)⟩
          (bytes.dropWhile (· != byte '<')) := by
  have hempty : ∀ rest, Place.outcome ⟨opened, .within (.text element content :: outer)⟩ rest =
      (Markup.unescape []).toOption.bind fun more ↦
        Place.outcome ⟨opened, .within (.text element (content ++ more) :: outer)⟩ rest := by
    intro rest
    rw [unescape_nil]
    exact congrArg (fun text ↦ Place.outcome ⟨opened, .within (.text element text :: outer)⟩ rest)
      String.append_empty.symm
  cases bytes with
  | nil => exact hempty []
  | cons b bytes =>
    by_cases hb : b = byte '<'
    · rw [List.takeWhile_cons_of_neg (by simpa using hb),
        List.dropWhile_cons_of_neg (by simpa using hb)]
      exact hempty (b :: bytes)
    · rw [outcome_of_event (unfinished_text _ _ _) (next_of_ne hb bytes),
        List.dropWhile_cons_of_pos (by simpa using hb), step, stepText]
      cases Markup.unescape ((b :: bytes).takeWhile (· != byte '<')) <;> rfl

theorem leads_glyph (glyph : Glyph) :
    Leads ⟨opened, .within (.text element content :: outer)⟩ glyph.written
      ⟨opened, .within (.text element (content ++ String.ofList [glyph.meaning]) :: outer)⟩ where
  whole rest := by
    have hplain : ∀ b ∈ glyph.written, (b != byte '<') = true := fun b hb ↦ by
      simpa using fun heq : b = byte '<' ↦ glyph.lt_notMem_written (heq ▸ hb)
    rw [outcome_text, outcome_text _ _ (content ++ String.ofList [glyph.meaning]),
      List.takeWhile_append_of_pos hplain, List.dropWhile_append_of_pos hplain,
      Markup.unescape_glyph, Option.bind_map]
    have htext : ∀ more : String, content ++ String.ofList (glyph.meaning :: more.toList) =
        content ++ String.ofList [glyph.meaning] ++ more := fun more ↦ by
      rw [← List.singleton_append, String.ofList_append, String.ofList_toList, String.append_assoc]
    simp only [Function.comp_def, htext]
  cut front hfront hne := by
    have hplain : ∀ b ∈ front, (b != byte '<') = true := fun b hb ↦ by
      simpa using fun heq : b = byte '<' ↦ glyph.lt_notMem_written (heq ▸ hfront.subset hb)
    have hdrop : front.dropWhile (· != byte '<') = [] := List.dropWhile_eq_nil_iff.2 hplain
    rw [outcome_text, hdrop]
    refine Option.bind_eq_none_iff.2 fun more _ ↦ outcome_nil (unfinished_text _ _ _)

end Texts

end LocalizedAccessors.PropertyList
