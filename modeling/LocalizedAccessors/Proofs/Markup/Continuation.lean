import LocalizedAccessors.Proofs.Markup.Construct

/-!
# Documents event by event

What is read of a document, one event after the other. The events that come first are all there is
to read in some front of the bytes; and a front that is read to its end is read in the same way
whatever follows it, unless it ends with a run of text, which may go on.
-/

namespace LocalizedAccessors.Markup

/-- The elements that are open after an event. An end tag has to name the one that was opened
last. -/
def Event.openedAfter? (opened : List Bytes) : Event → Option (List Bytes)
  | start name => some (name :: opened)
  | close name =>
    match opened with
    | [] => none
    | expected :: outer => if name = expected then some outer else none
  | _ => some opened

def Event.isText : Event → Bool
  | text _ => true
  | _ => false

def Event.isTag : Event → Bool
  | start _ | empty _ | close _ => true
  | _ => false

/-- Whether a run of text can end before these bytes. -/
def EndsText (bytes : Bytes) : Prop := ∀ b ∈ bytes.head?, b = byte '<'

/-- Some events are read from some bytes with certain elements open before and after them, and the
rest of the bytes is left. -/
inductive Continues : List Bytes → Bytes → List Event → List Bytes → Bytes → Prop where
  | nil (opened : List Bytes) (bytes : Bytes) : Continues opened bytes [] opened bytes
  | cons {opened middle after : List Bytes} {bytes content rest : Bytes} {event : Event}
      {events : List Event} (first : next opened bytes = .ok (some (event, middle, content)))
      (later : Continues middle content events after rest) :
      Continues opened bytes (event :: events) after rest

/-! ## One event -/

variable {opened after middle : List Bytes} {bytes front rest content : Bytes} {event : Event}
  {events more : List Event}

theorem endsText_nil : EndsText [] := by simp [EndsText]

theorem endsText_dropWhile (bytes : Bytes) : EndsText (bytes.dropWhile (· != byte '<')) := by
  intro b hb
  by_contra hne
  have hstops := List.head?_dropWhile_not (· != byte '<') bytes
  simp [Option.mem_def.1 hb, hne] at hstops

/-- A front of some bytes that a run of text can end before, or what follows it. -/
theorem EndsText.of_append {other : Bytes} (h : EndsText (front ++ rest))
    (hother : front = [] → EndsText other) : EndsText (front ++ other) := by
  cases front with
  | nil => exact hother rfl
  | cons b front => exact h

/-- Bytes that begin with no bracket begin with a run of text. -/
theorem next_of_ne {b : UInt8} (h : b ≠ byte '<') (bytes : Bytes) :
    next opened (b :: bytes) =
      .ok (some (.text ((b :: bytes).takeWhile (· != byte '<')), opened,
        bytes.dropWhile (· != byte '<'))) := by
  rw [next, if_neg (by simpa using h), List.dropWhile_cons_of_pos (by simpa using h)]

/-- A run of text is cut off where it ends. -/
theorem next_text {other : Bytes} (hne : front ≠ []) (hplain : ∀ b ∈ front, (b != byte '<') = true)
    (hother : EndsText other) :
    next opened (front ++ other) = .ok (some (.text front, opened, other)) := by
  have hnothing : other.takeWhile (· != byte '<') = [] ∧
      other.dropWhile (· != byte '<') = other := by
    cases other with
    | nil => exact ⟨rfl, rfl⟩
    | cons c other =>
      obtain rfl : c = byte '<' := hother c rfl
      exact ⟨rfl, rfl⟩
  obtain ⟨b, tail, rfl⟩ := List.exists_cons_of_ne_nil hne
  obtain ⟨hb, htail⟩ := List.forall_mem_cons.1 hplain
  rw [List.cons_append, next_of_ne (by simpa using hb), ← List.cons_append,
    List.takeWhile_append_of_pos hplain, List.dropWhile_append_of_pos htail, hnothing.1,
    hnothing.2, List.append_nil]

theorem upToClosing_eq_some {closes : Bytes → Bool} {seen : Bytes}
    (h : upToClosing closes seen bytes = some (content, rest)) :
    ∃ inner, bytes = inner ++ byte '>' :: rest ∧
      ∀ other, upToClosing closes seen (inner ++ byte '>' :: other) = some (content, other) := by
  induction bytes generalizing seen with
  | nil => simp [upToClosing] at h
  | cons b tail ih =>
    rw [upToClosing] at h
    split at h
    · next hclosing =>
      obtain ⟨rfl, rfl⟩ := Prod.mk.inj (Option.some.inj h)
      obtain ⟨hb, hcloses⟩ := Bool.and_eq_true_iff.1 hclosing
      obtain rfl : b = byte '>' := by simpa using hb
      refine ⟨[], rfl, fun other ↦ ?_⟩
      rw [List.nil_append, upToClosing, if_pos hclosing]
    · next hclosing =>
      obtain ⟨inner, rfl, hinner⟩ := ih h
      refine ⟨b :: inner, rfl, fun other ↦ ?_⟩
      rw [List.cons_append, upToClosing, if_neg hclosing, hinner other]

theorem Construct.of_bracket (content rest other : Bytes) :
    Construct.of (content ++ byte '>' :: rest) = Construct.of (content ++ byte '>' :: other) := by
  match content with
  | [] | [_] | _ :: _ :: _ => rfl

/-- A construct is no run of text, and its event tells what it opens and closes. -/
theorem Construct.event_eq_ok {construct : Construct}
    (h : construct.event opened content = .ok (event, after)) :
    event.isText = false ∧ event.openedAfter? opened = some after := by
  cases construct with
  | startTag =>
    rw [Construct.event] at h
    split at h
    all_goals
      cases h
      exact ⟨rfl, rfl⟩
  | endTag =>
    cases opened with
    | nil => cases h
    | cons expected outer =>
      simp only [Construct.event] at h
      split at h
      · next hname =>
        cases h
        exact ⟨rfl, if_pos hname⟩
      · cases h
  | instruction | comment | characterData =>
    rw [Construct.event] at h
    split at h
    · cases h
      exact ⟨rfl, rfl⟩
    · cases h
  | doctype =>
    rw [Construct.event] at h
    split at h
    · split at h
      · cases h
      · cases h
        exact ⟨rfl, rfl⟩
    · cases h

theorem readConstruct_eq_ok (h : readConstruct opened bytes = .ok (event, after, rest)) :
    event.isText = false ∧ event.openedAfter? opened = some after ∧
      ∃ content, bytes = content ++ byte '>' :: rest ∧
        ∀ other, readConstruct opened (content ++ byte '>' :: other) = .ok (event, after, other) := by
  rw [readConstruct] at h
  cases hof : Construct.of bytes with
  | error fault => simp [hof, bind, Except.bind] at h
  | ok construct =>
    simp only [hof, bind, Except.bind] at h
    cases hup : upToClosing construct.closes [] bytes with
    | none => simp [hup] at h
    | some parts =>
      obtain ⟨inside, tail⟩ := parts
      simp only [hup] at h
      cases hevent : construct.event opened inside with
      | error fault => simp [hevent] at h
      | ok told =>
        simp only [hevent, pure, Except.pure, Except.ok.injEq, Prod.mk.injEq] at h
        obtain ⟨rfl, rfl, rfl⟩ := h
        obtain ⟨hconstruct, hopened⟩ := Construct.event_eq_ok hevent
        obtain ⟨content, rfl, hcontent⟩ := upToClosing_eq_some hup
        refine ⟨hconstruct, hopened, content, rfl, fun other ↦ ?_⟩
        rw [readConstruct, Construct.of_bracket content other tail, hof]
        simp only [bind, Except.bind, hcontent other, hevent]
        rfl

/-- An event takes some of the bytes, and it is the same whatever follows them, except that a run
of text goes on up to the next bracket. -/
theorem next_eq_ok (h : next opened bytes = .ok (some (event, after, rest))) :
    event.openedAfter? opened = some after ∧ (event.isText = true → EndsText rest) ∧
      ∃ front, front ≠ [] ∧ bytes = front ++ rest ∧
        ∀ other, (event.isText = true → EndsText other) →
          next opened (front ++ other) = .ok (some (event, after, other)) := by
  cases bytes with
  | nil => simp [next] at h
  | cons b tail =>
    rw [next] at h
    split at h
    · next hb =>
      obtain rfl : b = byte '<' := by simpa using hb
      cases hread : readConstruct opened tail with
      | error fault => simp [hread, Except.map] at h
      | ok told =>
        simp only [hread, Except.map, Except.ok.injEq, Option.some.injEq] at h
        subst h
        obtain ⟨hconstruct, hopened, content, rfl, hcontent⟩ := readConstruct_eq_ok hread
        refine ⟨hopened, by simp [hconstruct], bracketed content, by simp [bracketed],
          by simp [bracketed], fun other _ ↦ ?_⟩
        have hwhole : bracketed content ++ other = byte '<' :: (content ++ byte '>' :: other) := by
          simp [bracketed]
        rw [hwhole, next, if_pos hb, hcontent other]
        rfl
    · next hb =>
      simp only [Except.ok.injEq, Option.some.injEq, Prod.mk.injEq] at h
      obtain ⟨rfl, rfl, rfl⟩ := h
      have hplain : (b != byte '<') = true := by simpa using hb
      refine ⟨rfl, fun _ ↦ endsText_dropWhile _, (b :: tail).takeWhile (· != byte '<'), ?_,
        List.takeWhile_append_dropWhile.symm, fun other hother ↦ ?_⟩
      · simp [hplain]
      · refine next_text (by simp [hplain]) (fun c hc ↦ ?_) (hother rfl)
        exact List.all_eq_true.1 List.all_takeWhile c hc

/-! ## One event after the other -/

namespace Document

theorem continued_of_error {fault : Fault} (h : next opened bytes = .error fault) :
    continued opened bytes = ⟨[], some fault⟩ := by
  rw [continued]
  split <;> simp_all

theorem continued_nil : continued opened [] = ⟨[], none⟩ := by
  rw [continued]
  rfl

theorem continued_of_event (h : next opened bytes = .ok (some (event, after, rest))) :
    continued opened bytes =
      ⟨event :: (continued after rest).events, (continued after rest).fault⟩ := by
  rw [continued]
  split <;> simp_all

theorem next_of_events_eq_cons (h : (continued opened bytes).events = event :: events) :
    ∃ after rest, next opened bytes = .ok (some (event, after, rest)) ∧
      (continued after rest).events = events := by
  cases hnext : next opened bytes with
  | error fault => simp [continued_of_error hnext] at h
  | ok told =>
    rcases told with _ | ⟨first, after, rest⟩
    · rw [continued] at h
      split at h <;> simp_all
    · rw [continued_of_event hnext] at h
      obtain ⟨rfl, hevents⟩ := List.cons.inj h
      exact ⟨after, rest, rfl, hevents⟩

end Document

namespace Continues

theorem continued_eq (h : Continues opened bytes events after rest) :
    Document.continued opened bytes =
      ⟨events ++ (Document.continued after rest).events,
        (Document.continued after rest).fault⟩ := by
  induction h with
  | nil => rfl
  | cons first _ ih => rw [Document.continued_of_event first, ih, List.cons_append]

theorem of_events (h : (Document.continued opened bytes).events = events ++ more) :
    ∃ after rest, Continues opened bytes events after rest := by
  induction events generalizing opened bytes with
  | nil => exact ⟨opened, bytes, nil opened bytes⟩
  | cons event events ih =>
    obtain ⟨middle, content, first, hlater⟩ := Document.next_of_events_eq_cons h
    obtain ⟨after, rest, later⟩ := ih hlater
    exact ⟨after, rest, cons first later⟩

/-- What is read to the end. -/
theorem of_eq (h : Document.continued opened bytes = ⟨events, none⟩) :
    ∃ after, Continues opened bytes events after [] := by
  obtain ⟨after, rest, continues⟩ := @of_events opened bytes events [] (by rw [h]; simp)
  have hrest := continues.continued_eq
  rw [h] at hrest
  obtain ⟨hevents, hfault⟩ := (Document.mk.injEq ..).mp hrest
  have hnone : (Document.continued after rest).events = [] := by simpa using hevents.symm
  cases hnext : next after rest with
  | error fault => simp [Document.continued_of_error hnext] at hfault
  | ok told =>
    rcases told with _ | ⟨event, later, left⟩
    · obtain rfl : rest = [] := by
        cases rest with
        | nil => rfl
        | cons b rest =>
          rw [next] at hnext
          split at hnext
          · cases hread : readConstruct after rest <;> simp [hread, Except.map] at hnext
          · simp at hnext
      exact ⟨after, continues⟩
    · simp [Document.continued_of_event hnext] at hnone

/-- The events are all there is to read in a front of the bytes, and are read from it whatever
follows it, except that a run of text at their end goes on up to the next bracket. -/
theorem exists_front (h : Continues opened bytes events after rest) :
    ∃ front, bytes = front ++ rest ∧ (events ≠ [] → front ≠ []) ∧
      ∀ other, (∀ event ∈ events.getLast?, event.isText = true → EndsText other) →
        Continues opened (front ++ other) events after other := by
  induction h with
  | nil opened bytes => exact ⟨[], rfl, fun h ↦ absurd rfl h, fun other _ ↦ nil opened other⟩
  | @cons opened middle after bytes content rest event events first later ih =>
    obtain ⟨inner, rfl, hinner, hlater⟩ := ih
    obtain ⟨-, hends, piece, hpiece, rfl, hfirst⟩ := next_eq_ok first
    refine ⟨piece ++ inner, (List.append_assoc ..).symm, fun _ ↦ by simp [hpiece],
      fun other hother ↦ ?_⟩
    rw [List.append_assoc]
    refine cons (hfirst _ fun htext ↦ ?_) (hlater other fun last hlast ↦ ?_)
    · refine (hends htext).of_append fun hempty ↦ ?_
      obtain rfl : events = [] := by_contra fun hevents ↦ hinner hevents hempty
      exact hother event rfl htext
    · cases events with
      | nil => cases hlast
      | cons second others => exact hother last (by simpa using hlast)

/-- Bytes without a bracket are text. -/
theorem isText_of_notMem (h : Continues opened bytes events after rest)
    (hbytes : byte '<' ∉ bytes) : ∀ event ∈ events, event.isText = true := by
  induction h with
  | nil => simp
  | @cons opened middle after bytes content rest event events first later ih =>
    cases bytes with
    | nil => simp [next] at first
    | cons b tail =>
      rw [List.mem_cons, not_or] at hbytes
      rw [next_of_ne (Ne.symm hbytes.1)] at first
      obtain ⟨rfl, rfl, rfl⟩ : Event.text _ = event ∧ opened = middle ∧ _ = content := by
        simpa using first
      have hrest : byte '<' ∉ tail.dropWhile (· != byte '<') := fun hmem ↦
        hbytes.2 ((List.dropWhile_sublist _).subset hmem)
      exact List.forall_mem_cons.2 ⟨rfl, ih hrest⟩

end Continues

/-! ## Documents -/

theorem withoutMark_of_unmarked (h : ¬byteOrderMark <+: bytes) : withoutMark bytes = bytes := by
  rw [withoutMark, if_neg (by simpa using h)]

theorem withoutMark_append (bytes : Bytes) : withoutMark (byteOrderMark ++ bytes) = bytes := by
  rw [withoutMark, if_pos (by simp)]
  rfl

namespace Document

theorem exists_front_of_continued (h : (continued opened bytes).events = events ++ more) :
    ∃ front, front <+: bytes ∧ continued opened front = ⟨events, none⟩ := by
  obtain ⟨after, rest, continues⟩ := Continues.of_events h
  obtain ⟨front, rfl, -, hfront⟩ := continues.exists_front
  have hwhole := (hfront [] fun _ _ _ ↦ endsText_nil).continued_eq
  rw [List.append_nil, continued_nil, List.append_nil] at hwhole
  exact ⟨front, List.prefix_append .., hwhole⟩

/-- The events that come first are a whole document in a front of the bytes. -/
theorem exists_front (h : (ofBytes bytes).events = events ++ more) :
    ∃ front, front <+: bytes ∧ ofBytes front = ⟨events, none⟩ := by
  by_cases hmark : byteOrderMark <+: bytes
  · obtain ⟨body, rfl⟩ := hmark
    rw [ofBytes, withoutMark_append] at h
    obtain ⟨front, hfront, hwhole⟩ := exists_front_of_continued h
    refine ⟨byteOrderMark ++ front, (List.prefix_append_right_inj _).2 hfront, ?_⟩
    rw [ofBytes, withoutMark_append, hwhole]
  · rw [ofBytes, withoutMark_of_unmarked hmark] at h
    obtain ⟨front, hfront, hwhole⟩ := exists_front_of_continued h
    refine ⟨front, hfront, ?_⟩
    rw [ofBytes, withoutMark_of_unmarked fun hmarked ↦ hmark (hmarked.trans hfront), hwhole]

theorem continued_append (h : continued opened front = ⟨events, none⟩) {last : Event}
    (hlast : events.getLast? = some last) (hconstruct : last.isText = false) (rest : Bytes) :
    ∃ more, (continued opened (front ++ rest)).events = events ++ more := by
  obtain ⟨after, continues⟩ := Continues.of_eq h
  obtain ⟨whole, hwhole, -, hfront⟩ := continues.exists_front
  rw [List.append_nil] at hwhole
  subst hwhole
  have hrest := hfront rest fun event hevent htext ↦ by
    obtain rfl := Option.some.inj (hlast.symm.trans hevent)
    simp [hconstruct] at htext
  exact ⟨_, congrArg Document.events hrest.continued_eq⟩

/-- A document that ends with a construct is read in the same way whatever follows it. -/
theorem ofBytes_append (h : ofBytes front = ⟨events, none⟩) {last : Event}
    (hlast : events.getLast? = some last) (hconstruct : last.isText = false) (rest : Bytes) :
    ∃ more, (ofBytes (front ++ rest)).events = events ++ more := by
  by_cases hmark : byteOrderMark <+: front
  · obtain ⟨body, rfl⟩ := hmark
    rw [ofBytes, withoutMark_append] at h
    rw [List.append_assoc, ofBytes, withoutMark_append]
    exact continued_append h hlast hconstruct rest
  · rw [ofBytes, withoutMark_of_unmarked hmark] at h
    -- A front of the mark is text, so the bytes behind it cannot make it one.
    have hunmarked : ¬byteOrderMark <+: front ++ rest := by
      intro hmarked
      have hcut : front <+: byteOrderMark :=
        (List.prefix_or_prefix_of_prefix (List.prefix_append front rest) hmarked).resolve_right
          hmark
      obtain ⟨after, continues⟩ := Continues.of_eq h
      have htext := continues.isText_of_notMem
        (fun hmem ↦ absurd (hcut.subset hmem) (by decide)) last (List.mem_of_getLast? hlast)
      simp [hconstruct] at htext
    rw [ofBytes, withoutMark_of_unmarked hunmarked]
    exact continued_append h hlast hconstruct rest

end Document

end LocalizedAccessors.Markup
