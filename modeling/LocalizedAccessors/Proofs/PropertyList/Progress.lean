import LocalizedAccessors.Proofs.PropertyList.Outline
import LocalizedAccessors.Proofs.PropertyList.Reading

/-!
# Property lists that are still open

Without lapses the machine's stack and the open elements of the markup stay in step, and the events
so far are an unfinished property list that the two describe. Every event without a lapse keeps it
so; when the root is finished, the events end with a value.
-/

namespace LocalizedAccessors.PropertyList

/-- The name of the element that opened a frame. -/
def Frame.name : Frame → Markup.Bytes
  | dict .. => Markup.ascii "dict"
  | array _ => Markup.ascii "array"
  | text element _ => Markup.ascii element.name
  | skipped name _ => name

namespace Outline

open Markup (Bytes Event Continues ascii)

/-! ## What is open -/

/-- Whether values can stand directly in what is open. -/
def HoldsValues : List Frame → Prop
  | .text .. :: _ | .skipped .. :: _ => False
  | _ => True

/-- What was read since the start tag of a value that is still open. -/
inductive Holds : Frame → List Event → Prop where
  | dict {events : List Event} {pairs : List (String × PropertyList)}
      (members : Members events pairs) : Holds (.dict pairs none) events
  | pending {events named between : List Event} {pairs : List (String × PropertyList)}
      {key : String} (members : Members events pairs) (isKey : Key named key)
      (tagless : Tagless between) : Holds (.dict pairs (some key)) (events ++ named ++ between)
  | array {events : List Event} {items : List PropertyList} (elements : Items events items) :
      Holds (.array items) events
  | string {events : List Event} {content : String} (characters : Characters events content) :
      Holds (.text .string content) events
  | skipped {events : List Event} {name : Bytes} (isOther : IsOther name)
      (tagless : Tagless events) : Holds (.skipped name 0) events

/-- What was read of a document when these frames are open, and these elements for the markup. -/
inductive Stands : List Frame → List Event → List Bytes → Prop where
  | leading {events : List Event} {opened : List Bytes}
      (h : ∀ event ∈ events, leads event = true) : Stands [] events opened
  | value {outer : List Frame} {frame : Frame} {before inner : List Event} {opened : List Bytes}
      (outside : Stands outer before opened) (holdsValues : HoldsValues outer)
      (holds : Holds frame inner) :
      Stands (frame :: outer) (before ++ .start frame.name :: inner) (frame.name :: opened)
  -- A key is no value: only a dictionary holds it, and only while none waits.
  | key {outer : List Frame} {pairs : List (String × PropertyList)} {content : String}
      {before inner : List Event} {opened : List Bytes}
      (outside : Stands (.dict pairs none :: outer) before opened)
      (characters : Characters inner content) :
      Stands (.text .key content :: .dict pairs none :: outer)
        (before ++ .start (ascii "key") :: inner) (ascii "key" :: opened)

/-- What was read when a state is reached. -/
inductive Reached : State → List Event → List Bytes → Prop where
  | around {frames : List Frame} {events : List Event} {opened : List Bytes}
      (stands : Stands frames events opened) : Reached (.around frames) events opened
  | finished {before inner : List Event} {root : PropertyList} {opened : List Bytes}
      (h : ∀ event ∈ before, leads event = true) (isValue : Value inner root) :
      Reached (.finished root) (before ++ inner) opened

variable {opened after : List Bytes} {bytes rest : Bytes} {event : Event}
  {events inner before more : List Event} {frame : Frame} {outer : List Frame}
  {state reached : State} {value root : PropertyList}

/-! ## From the machine to the outline -/

theorem Reached.of_eq (h : Reached state events opened) (heq : events = more) :
    Reached state more opened := heq ▸ h

theorem Tagless.concat (h : Tagless events) (hevent : event.isTag = false) :
    Tagless (events ++ [event]) := by
  simpa [Tagless, or_imp, forall_and] using ⟨h, hevent⟩

theorem Tagless.nil : Tagless [] := by simp [Tagless]

/-- A value is delivered to where it belongs. -/
theorem Stands.reached_deliver (stands : Stands outer before opened) (holdsValues : HoldsValues outer)
    (isValue : Value inner value) (h : deliver value outer = .ok state) :
    Reached state (before ++ inner) opened := by
  cases stands with
  | leading hleads =>
    cases h
    exact .finished hleads isValue
  | key => exact holdsValues.elim
  | @value outer frame earlier content opened outside hosts holds =>
    cases holds with
    | dict => cases h
    | pending members isKey tagless =>
      cases h
      refine (Reached.around (.value outside hosts
        (.dict (.entry members isKey tagless isValue)))).of_eq ?_
      simp [Frame.name]
    | array elements =>
      cases h
      refine (Reached.around (.value outside hosts (.array (.item elements isValue)))).of_eq ?_
      simp [Frame.name]
    | string | skipped => exact holdsValues.elim

/-- Characters go on with whatever is no tag. -/
theorem Characters.concat {element : TextElement} {content : String}
    (characters : Characters inner content) (htag : event.isTag = false)
    (h : step (.within (.text element content :: outer)) event = .ok reached) :
    ∃ longer, reached = .within (.text element longer :: outer) ∧
      Characters (inner ++ [event]) longer := by
  cases event with
  | start | empty | close => simp [Event.isTag] at htag
  | text bytes =>
    rw [step, stepText] at h
    split at h
    · next more hresolved =>
      cases h
      exact ⟨_, rfl, .text characters hresolved⟩
    · cases h
  | characterData bytes =>
    cases h
    exact ⟨_, rfl, .characterData bytes characters⟩
  | other =>
    cases h
    exact ⟨_, rfl, .other characters⟩

/-- Between elements and in elements that are passed over, nothing but tags is looked at. -/
theorem step_of_not_isTag (hframe : ∀ element content, frame ≠ .text element content)
    (htag : event.isTag = false) :
    step (.within (frame :: outer)) event = .ok (.within (frame :: outer)) := by
  cases event with
  | start | empty | close => simp [Event.isTag] at htag
  | text | characterData | other =>
    cases frame with
    | text element content => exact absurd rfl (hframe element content)
    | dict | array | skipped => rfl

/-- A value that is open stays open after whatever is no tag. -/
theorem Holds.concat (holds : Holds frame inner) (htag : event.isTag = false)
    (h : step (.within (frame :: outer)) event = .ok reached) :
    ∃ longer, reached = .within (longer :: outer) ∧ longer.name = frame.name ∧
      Holds longer (inner ++ [event]) := by
  cases holds with
  | string characters =>
    obtain ⟨longer, rfl, hcharacters⟩ := characters.concat htag h
    exact ⟨_, rfl, rfl, .string hcharacters⟩
  | dict members =>
    obtain rfl := Except.ok.inj ((step_of_not_isTag (by simp) htag).symm.trans h)
    exact ⟨_, rfl, rfl, .dict (.between members htag)⟩
  | pending members isKey tagless =>
    obtain rfl := Except.ok.inj ((step_of_not_isTag (by simp) htag).symm.trans h)
    refine ⟨_, rfl, rfl, ?_⟩
    rw [List.append_assoc]
    exact .pending members isKey (tagless.concat htag)
  | array elements =>
    obtain rfl := Except.ok.inj ((step_of_not_isTag (by simp) htag).symm.trans h)
    exact ⟨_, rfl, rfl, .array (.between elements htag)⟩
  | skipped isOther tagless =>
    obtain rfl := Except.ok.inj ((step_of_not_isTag (by simp) htag).symm.trans h)
    exact ⟨_, rfl, rfl, .skipped isOther (tagless.concat htag)⟩

/-- What a start tag opens holds nothing yet. -/
theorem holds_opened {name : Bytes} (hname : name ≠ ascii "key") :
    (Frame.opened name).name = name ∧ Holds (Frame.opened name) [] := by
  unfold Frame.opened
  split
  · next hdict => exact ⟨hdict.symm, .dict .nil⟩
  · split
    · next harray => exact ⟨harray.symm, .array .nil⟩
    · split
      · next hstring => exact ⟨hstring.symm, .string .nil⟩
      · next hdict harray hstring =>
        exact ⟨rfl, .skipped (by simp [IsOther, hname, hdict, harray, hstring]) .nil⟩

theorem Stands.start {name : Bytes} (stands : Stands outer before opened)
    (holdsValues : HoldsValues outer) (hname : name ≠ ascii "key") :
    Reached (.within (Frame.opened name :: outer)) (before ++ [.start name]) (name :: opened) := by
  obtain ⟨hopened, holds⟩ := holds_opened hname
  have hinner := Reached.around (.value stands holdsValues holds)
  rwa [hopened] at hinner

/-- The end tag of a value. -/
theorem Stands.close (outside : Stands outer before opened) (holdsValues : HoldsValues outer)
    (holds : Holds frame inner)
    (hlapse : (State.within (frame :: outer)).lapse? (.close frame.name) = none)
    (h : step (.within (frame :: outer)) (.close frame.name) = .ok reached) :
    Reached reached (before ++ .start frame.name :: inner ++ [.close frame.name]) opened := by
  rw [List.append_assoc]
  cases holds with
  | dict members => exact outside.reached_deliver holdsValues (.dict members) h
  | pending => cases hlapse
  | array elements => exact outside.reached_deliver holdsValues (.array elements) h
  | string characters => exact outside.reached_deliver holdsValues (.string characters) h
  | skipped isOther tagless =>
    rw [step, stepSkipped, Frame.name, if_pos rfl] at h
    exact outside.reached_deliver holdsValues (.other isOther tagless) h

/-- A key that is complete waits for its value. -/
theorem Stands.wait {pairs : List (String × PropertyList)} {key : String} {named : List Event}
    (stands : Stands (.dict pairs none :: outer) before opened) (isKey : Key named key) :
    Reached (.within (.dict pairs (some key) :: outer)) (before ++ named) opened := by
  cases stands with
  | value outside holdsValues holds =>
    cases holds with
    | dict members =>
      refine (Reached.around (.value outside holdsValues (.pending members isKey .nil))).of_eq ?_
      simp [Frame.name]

theorem lapse?_empty (outer : List Frame) (name : Bytes) :
    (State.around outer).lapse? (.empty name) = (State.around outer).lapse? (.start name) := by
  match outer with
  | [] | .dict _ none :: _ | .dict _ (some _) :: _ | .array _ :: _ | .text .. :: _
  | .skipped .. :: _ => rfl

/-- Values can stand where values belong, and keys in a dictionary where no key waits. -/
theorem lapse?_start_eq_none {name : Bytes} :
    (State.around outer).lapse? (.start name) = none ↔ HoldsValues outer ∧
      (name = ascii "key" → ∃ pairs frames, outer = .dict pairs none :: frames) := by
  match outer with
  | [] | .dict _ none :: _ | .dict _ (some _) :: _ | .array _ :: _ | .text .. :: _
  | .skipped .. :: _ => simp [State.around, State.lapse?, HoldsValues]

theorem step_start_around {name : Bytes} (holdsValues : HoldsValues outer)
    (hname : name ≠ ascii "key") (hroot : outer = [] → name ≠ ascii "plist") :
    step (.around outer) (.start name) = .ok (.within (Frame.opened name :: outer)) := by
  match outer with
  | [] => simp [State.around, step, hroot]
  | .dict pairs pending :: frames => exact (hosts_dict pairs pending frames hname).start
  | .array items :: frames => rfl
  | .text .. :: _ | .skipped .. :: _ => exact holdsValues.elim

theorem step_empty_around {name : Bytes} (holdsValues : HoldsValues outer)
    (hname : name ≠ ascii "key") :
    step (.around outer) (.empty name) = deliver (ofEmpty name) outer := by
  match outer with
  | [] | .array _ :: _ => rfl
  | .dict pairs pending :: frames => exact (hosts_dict pairs pending frames hname).empty
  | .text .. :: _ | .skipped .. :: _ => exact holdsValues.elim

/-- A start tag without a lapse. -/
theorem Stands.step_start {name : Bytes} (stands : Stands outer before opened)
    (hlapse : (State.around outer).lapse? (.start name) = none)
    (h : step (.around outer) (.start name) = .ok reached) :
    Reached reached (before ++ [.start name]) (name :: opened) := by
  obtain ⟨holdsValues, hkey⟩ := lapse?_start_eq_none.1 hlapse
  by_cases hname : name = ascii "key"
  · obtain ⟨pairs, frames, rfl⟩ := hkey hname
    subst hname
    cases h
    exact .around (.key stands .nil)
  · by_cases hwrapper : outer = [] ∧ name = ascii "plist"
    · obtain ⟨rfl, rfl⟩ := hwrapper
      cases h
      cases stands with
      | leading hleads =>
        refine @Reached.around [] _ _ (.leading ?_)
        simpa [or_imp, forall_and, leads] using hleads
    · have hstarted := step_start_around holdsValues hname (not_and.1 hwrapper)
      obtain rfl := Except.ok.inj (hstarted.symm.trans h)
      exact stands.start holdsValues hname

/-- An empty element without a lapse. -/
theorem Stands.step_empty {name : Bytes} (stands : Stands outer before opened)
    (hlapse : (State.around outer).lapse? (.empty name) = none)
    (h : step (.around outer) (.empty name) = .ok reached) :
    Reached reached (before ++ [.empty name]) opened := by
  rw [lapse?_empty] at hlapse
  obtain ⟨holdsValues, hkey⟩ := lapse?_start_eq_none.1 hlapse
  by_cases hname : name = ascii "key"
  · obtain ⟨pairs, frames, rfl⟩ := hkey hname
    subst hname
    cases h
    exact stands.wait .empty
  · rw [step_empty_around holdsValues hname] at h
    exact stands.reached_deliver holdsValues (.empty hname) h

/-- An end tag without a lapse ends what was opened last. -/
theorem Stands.step_close {name : Bytes} (stands : Stands outer before opened)
    (hopened : Event.openedAfter? opened (.close name) = some after)
    (hlapse : (State.around outer).lapse? (.close name) = none)
    (h : step (.around outer) (.close name) = .ok reached) :
    Reached reached (before ++ [.close name]) after := by
  cases stands with
  | leading => cases hlapse
  | @value outer frame earlier inner opened outside holdsValues holds =>
    obtain ⟨rfl, rfl⟩ : name = frame.name ∧ opened = after := by
      simpa [Event.openedAfter?] using hopened
    exact outside.close holdsValues holds hlapse h
  | @key outer pairs content earlier inner opened outside characters =>
    obtain ⟨rfl, rfl⟩ : name = ascii "key" ∧ opened = after := by
      simpa [Event.openedAfter?] using hopened
    cases h
    rw [List.append_assoc]
    exact outside.wait (.full characters)

theorem Stands.step_of_not_isTag (stands : Stands outer before opened)
    (htag : event.isTag = false) (hlapse : (State.around outer).lapse? event = none)
    (h : step (.around outer) event = .ok reached) :
    Reached reached (before ++ [event]) opened := by
  cases stands with
  | leading hleads =>
    have hboth : leads event = true ∧ step .beforeRoot event = .ok .beforeRoot := by
      cases event with
      | start | empty | close => simp [Event.isTag] at htag
      | text content => exact ⟨by simpa [State.around, State.lapse?, leads] using hlapse, rfl⟩
      | characterData => cases hlapse
      | other => exact ⟨rfl, rfl⟩
    obtain rfl := Except.ok.inj (hboth.2.symm.trans h)
    refine @Reached.around [] _ _ (.leading ?_)
    simpa [or_imp, forall_and, hboth.1] using hleads
  | @value outer frame earlier inner opened outside holdsValues holds =>
    obtain ⟨longer, rfl, hname, hlonger⟩ := holds.concat htag h
    have hstands := Stands.value outside holdsValues hlonger
    rw [hname] at hstands
    exact (Reached.around hstands).of_eq (by simp)
  | key outside characters =>
    obtain ⟨longer, rfl, hlonger⟩ := characters.concat htag h
    exact (Reached.around (.key outside hlonger)).of_eq (by simp)

/-- One event without a lapse. -/
theorem Stands.step (stands : Stands outer before opened)
    (hopened : event.openedAfter? opened = some after)
    (hlapse : (State.around outer).lapse? event = none)
    (h : PropertyList.step (.around outer) event = .ok reached) :
    Reached reached (before ++ [event]) after := by
  cases event with
  | start name =>
    cases hopened
    exact stands.step_start hlapse h
  | empty name =>
    cases hopened
    exact stands.step_empty hlapse h
  | close name => exact stands.step_close hopened hlapse h
  | text | characterData | other =>
    cases hopened
    exact stands.step_of_not_isTag rfl hlapse h

theorem unfinished_within (frames : List Frame) : (State.within frames).Unfinished := by
  simp [State.Unfinished]

theorem lapses_cons (h : state.Unfinished) (event : Event) (events : List Event) :
    state.lapses (event :: events) = (state.lapse? event).toList ++
      match step state event with
      | .ok after => after.lapses events
      | .error _ => [] := by
  cases state with
  | finished root => exact absurd rfl (h root)
  | beforeRoot | within => rfl

/-- A run that finishes the root without lapses has read a value at its end. -/
theorem Reached.exists_finished (continues : Continues opened bytes events after rest)
    (reached : Reached state before opened) (hrun : run state events = .ok (.finished root))
    (hlapses : state.lapses events = []) :
    ∃ read more later, events = read ++ more ∧ Reached (.finished root) (before ++ read) later := by
  -- Along the events: each leads on to a state that is reached, until the root is finished.
  induction continues generalizing state before with
  | nil opened bytes =>
    cases hrun
    exact ⟨[], [], opened, rfl, by rwa [List.append_nil]⟩
  | @cons opened middle after bytes content rest event events first later ih =>
    cases reached with
    | finished hleads isValue =>
      -- What follows the root is not looked at.
      cases hrun
      exact ⟨[], event :: events, opened, rfl,
        by rw [List.append_nil]; exact .finished hleads isValue⟩
    | @around frames before opened stands =>
      rw [run_cons (unfinished_around frames)] at hrun
      rw [lapses_cons (unfinished_around frames), List.append_eq_nil_iff] at hlapses
      cases hstep : PropertyList.step (.around frames) event with
      | error fault => simp [hstep] at hrun
      | ok state =>
        simp only [hstep] at hrun hlapses
        have hlapse := Option.toList_eq_nil_iff.1 hlapses.1
        have hnext := stands.step (Markup.next_eq_ok first).1 hlapse hstep
        obtain ⟨read, more, last, rfl, hread⟩ := ih hnext hrun hlapses.2
        exact ⟨event :: read, more, last, rfl, hread.of_eq (by simp)⟩

theorem Reached.of_finished (h : Reached (.finished root) events opened) :
    ∃ leading inner, events = leading ++ inner ∧ (∀ event ∈ leading, leads event = true) ∧
      Value inner root := by
  generalize hstate : State.finished root = state at h
  cases h with
  | @around frames => cases frames <;> cases hstate
  | finished hleads isValue =>
    cases hstate
    exact ⟨_, _, rfl, hleads, isValue⟩

end Outline

end LocalizedAccessors.PropertyList
