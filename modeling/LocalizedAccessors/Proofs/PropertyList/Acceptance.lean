import LocalizedAccessors.Proofs.PropertyList.Progress

/-!
# What is accepted

Whatever is accepted without lapses begins with a document whose value it is, and whatever begins
with a document is accepted. With lapses there may be no such document: a dictionary can end with
the end tag of another one that stands in a key.
-/

namespace LocalizedAccessors.PropertyList

namespace Outline

open Markup (Bytes byte Event Document Continues ascii isSpace)

variable {bytes front rest : Bytes} {event : Event} {events more : List Event} {frame : Frame}
  {outer : List Frame} {state reached : State}
  {rules : List (String × PropertyList)}

/-! ## From bytes to documents -/

theorem exists_document (h : rootPairs bytes = .ok rules) (hlapses : lapses bytes = []) :
    ∃ front, front <+: bytes ∧ IsDocument front rules := by
  have hrun := (rootPairs_eq_ok.1 h).2
  obtain ⟨after, rest, continues⟩ : ∃ after rest,
      Continues [] (Markup.withoutMark bytes) (Document.ofBytes bytes).events after rest :=
    Continues.of_events (List.append_nil _).symm
  have hnothing : Reached .beforeRoot [] [] := @Reached.around [] _ _ (.leading (by simp))
  obtain ⟨read, more, later, hevents, hread⟩ := hnothing.exists_finished continues hrun hlapses
  obtain ⟨front, hfront, hwhole⟩ := Document.exists_front hevents
  rw [List.nil_append] at hread
  obtain ⟨leading, inner, rfl, hleads, isValue⟩ := hread.of_finished
  exact ⟨front, hfront, leading, inner, hwhole, hleads, isValue⟩

/-! ## From the outline to the machine -/

/-- Whether some events lead from one state to another without lapses. -/
structure Passes (state : State) (events : List Event) (after : State) : Prop where
  run : run state events = .ok after
  lapses : state.lapses events = []

theorem run_finished (root : PropertyList) (events : List Event) :
    run (.finished root) events = .ok (.finished root) := by
  cases events <;> rfl

theorem lapses_finished (root : PropertyList) (events : List Event) :
    (State.finished root).lapses events = [] := by
  cases events <;> rfl

theorem run_append (state : State) (events more : List Event) :
    run state (events ++ more) =
      match run state events with
      | .ok after => run after more
      | .error fault => .error fault := by
  induction events generalizing state with
  | nil => rfl
  | cons event events ih =>
    cases state with
    | finished root => simp [run_finished]
    | beforeRoot | within =>
      rw [List.cons_append, run_cons (by simp [State.Unfinished]),
        run_cons (by simp [State.Unfinished])]
      cases step _ event with
      | error fault => rfl
      | ok after => exact ih after

namespace Passes

theorem nil (state : State) : Passes state [] state := ⟨rfl, rfl⟩

theorem of_step (hstate : state.Unfinished) (hstep : step state event = .ok reached)
    (hlapse : state.lapse? event = none) : Passes state [event] reached where
  run := by
    rw [run_cons hstate, hstep]
    rfl
  lapses := by
    rw [lapses_cons hstate, hstep, hlapse]
    rfl

theorem append {final : State} (first : Passes state events reached)
    (later : Passes reached more final) : Passes state (events ++ more) final where
  run := by
    rw [run_append, first.run]
    exact later.run
  lapses := by
    obtain ⟨hrun, hlapses⟩ := first
    induction events generalizing state with
    | nil =>
      cases hrun
      exact later.lapses
    | cons event events ih =>
      cases state with
      | finished root => exact lapses_finished root _
      | beforeRoot | within =>
        rw [List.cons_append, lapses_cons (by simp [State.Unfinished]), List.append_eq_nil_iff]
        rw [lapses_cons (by simp [State.Unfinished]), List.append_eq_nil_iff] at hlapses
        rw [run_cons (by simp [State.Unfinished])] at hrun
        refine ⟨hlapses.1, ?_⟩
        cases hstep : step _ event with
        | error fault => rfl
        | ok after =>
          rw [hstep] at hrun hlapses
          exact ih hrun hlapses.2

end Passes

theorem lapse?_of_not_isTag (outer : List Frame) (htag : event.isTag = false) :
    (State.within outer).lapse? event = none := by
  cases event with
  | start | empty | close => simp [Event.isTag] at htag
  | text | characterData | other =>
    rcases outer with _ | ⟨⟨pairs, _ | key⟩ | _ | _ | _, outer⟩ <;> rfl

theorem passes_of_not_isTag (hframe : ∀ element content, frame ≠ .text element content)
    (htag : event.isTag = false) :
    Passes (.within (frame :: outer)) [event] (.within (frame :: outer)) :=
  .of_step (unfinished_within _) (step_of_not_isTag hframe htag) (lapse?_of_not_isTag _ htag)

theorem passes_tagless (hframe : ∀ element content, frame ≠ .text element content)
    (tagless : Tagless events) :
    Passes (.within (frame :: outer)) events (.within (frame :: outer)) := by
  induction events with
  | nil => exact .nil _
  | cons event events ih =>
    obtain ⟨hevent, hevents⟩ := List.forall_mem_cons.1 tagless
    exact (passes_of_not_isTag hframe hevent).append (ih hevents)

theorem passes_characters (element : TextElement) (outer : List Frame) {content : String}
    (characters : Characters events content) :
    Passes (.within (.text element "" :: outer)) events
      (.within (.text element content :: outer)) := by
  induction characters with
  | nil => exact .nil _
  | text before resolved ih =>
    refine ih.append (.of_step (unfinished_within _) ?_ rfl)
    rw [step, stepText, resolved]
  | characterData bytes before ih => exact ih.append (.of_step (unfinished_within _) rfl rfl)
  | other before ih => exact ih.append (.of_step (unfinished_within _) rfl rfl)

theorem passes_key (pairs : List (String × PropertyList)) (outer : List Frame) {key : String}
    (isKey : Key events key) :
    Passes (.within (.dict pairs none :: outer)) events
      (.within (.dict pairs (some key) :: outer)) := by
  cases isKey with
  | empty => exact .of_step (unfinished_within _) rfl rfl
  | @full events _ characters =>
    have hcontent := passes_characters .key (.dict pairs none :: outer) characters
    have hopening : Passes (.within (.dict pairs none :: outer)) [.start (ascii "key")]
        (.within (.text .key "" :: .dict pairs none :: outer)) :=
      .of_step (unfinished_within _) rfl rfl
    exact (hopening.append hcontent).append (.of_step (unfinished_within _) rfl rfl)

/-- The tags of a value with some content between them. -/
theorem passes_enclosed {name : Bytes} (holdsValues : HoldsValues outer)
    (hname : name ≠ ascii "key") (hroot : outer = [] → name ≠ ascii "plist")
    (hcontent : Passes (.within (Frame.opened name :: outer)) events (.within (frame :: outer)))
    (hclose : step (.within (frame :: outer)) (.close name) = .ok reached)
    (hlapse : (State.within (frame :: outer)).lapse? (.close name) = none) :
    Passes (.around outer) (enclosed name events) reached := by
  have hopening : Passes (.around outer) [.start name] (.within (Frame.opened name :: outer)) :=
    .of_step (unfinished_around outer) (step_start_around holdsValues hname hroot)
      (lapse?_start_eq_none.2 ⟨holdsValues, fun heq ↦ absurd heq hname⟩)
  exact (hopening.append hcontent).append (.of_step (unfinished_within _) hclose hlapse)

/-- The element of a value that is passed over. -/
theorem passes_other {name : Bytes} (isOther : IsOther name) (tagless : Tagless events)
    (holdsValues : HoldsValues outer) (hroot : outer ≠ [])
    (hdeliver : deliver .other outer = .ok reached) :
    Passes (.around outer) (enclosed name events) reached := by
  obtain ⟨hkey, hstring, hdict, harray⟩ : name ≠ ascii "key" ∧ name ≠ ascii "string" ∧
      name ≠ ascii "dict" ∧ name ≠ ascii "array" := by
    simpa [IsOther] using isOther
  have hopened : Frame.opened name = .skipped name 0 := by
    simp [Frame.opened, hstring, hdict, harray]
  have hcontent : Passes (.within (Frame.opened name :: outer)) events
      (.within (.skipped name 0 :: outer)) := by
    rw [hopened]
    exact passes_tagless (by simp) tagless
  refine passes_enclosed holdsValues hkey (fun hnil ↦ absurd hnil hroot) hcontent ?_ rfl
  rw [step, stepSkipped, if_pos rfl]
  exact hdeliver

/-- An empty element that is a value. -/
theorem passes_empty {name : Bytes} (noKey : name ≠ ascii "key") (holdsValues : HoldsValues outer)
    (hdeliver : deliver (ofEmpty name) outer = .ok reached) :
    Passes (.around outer) [.empty name] reached := by
  refine .of_step (unfinished_around outer) ?_ ?_
  · rw [step_empty_around holdsValues noKey, hdeliver]
  · rw [lapse?_empty]
    exact lapse?_start_eq_none.2 ⟨holdsValues, fun heq ↦ absurd heq noKey⟩

mutual

/-- A value is read as what it is. At the root an element of any other name may be taken for the one
around the root. -/
theorem passes_value {events : List Event} {value : PropertyList} :
    Value events value → ∀ (outer : List Frame) (reached : State), HoldsValues outer →
      (outer = [] → value ≠ .other) → deliver value outer = .ok reached →
        Passes (.around outer) events reached
  | .empty noKey, _, _, holdsValues, _, hdeliver => passes_empty noKey holdsValues hdeliver
  | .string characters, outer, _, holdsValues, _, hdeliver =>
    passes_enclosed holdsValues (by decide) (fun _ ↦ by decide)
      (passes_characters .string outer characters) hdeliver rfl
  | .dict members, outer, _, holdsValues, _, hdeliver =>
    passes_enclosed holdsValues (by decide) (fun _ ↦ by decide) (passes_members members outer)
      hdeliver rfl
  | .array elements, outer, _, holdsValues, _, hdeliver =>
    passes_enclosed holdsValues (by decide) (fun _ ↦ by decide) (passes_items elements outer)
      hdeliver rfl
  | .other isOther tagless, _, _, holdsValues, hroot, hdeliver =>
    passes_other isOther tagless holdsValues (fun hnil ↦ hroot hnil rfl) hdeliver

theorem passes_members {events : List Event} {pairs : List (String × PropertyList)} :
    Members events pairs → ∀ outer : List Frame,
      Passes (.within (.dict [] none :: outer)) events (.within (.dict pairs none :: outer))
  | .nil, _ => .nil _
  | .between before noTag, outer =>
    (passes_members before outer).append (passes_of_not_isTag (by simp) noTag)
  | .entry before isKey tagless isValue, outer =>
    have hkey := (passes_members before outer).append (passes_key _ outer isKey)
    have hbetween := hkey.append (passes_tagless (by simp) tagless)
    hbetween.append (passes_value isValue (.dict _ (some _) :: outer) _ trivial (by simp) rfl)

theorem passes_items {events : List Event} {items : List PropertyList} :
    Items events items → ∀ outer : List Frame,
      Passes (.within (.array [] :: outer)) events (.within (.array items :: outer))
  | .nil, _ => .nil _
  | .between before noTag, outer =>
    (passes_items before outer).append (passes_of_not_isTag (by simp) noTag)
  | .item before isValue, outer =>
    (passes_items before outer).append
      (passes_value isValue (.array _ :: outer) _ trivial (by simp) rfl)

end

theorem passes_leading (h : ∀ event ∈ events, leads event = true) :
    Passes .beforeRoot events .beforeRoot := by
  induction events with
  | nil => exact .nil _
  | cons event events ih =>
    obtain ⟨hevent, hevents⟩ := List.forall_mem_cons.1 h
    have hfirst : Passes .beforeRoot [event] .beforeRoot := by
      cases event with
      | start name =>
        obtain rfl : name = ascii "plist" := by simpa [leads] using hevent
        exact .of_step passive_beforeRoot.unfinished rfl rfl
      | text content => exact .of_step passive_beforeRoot.unfinished rfl (if_pos hevent)
      | other => exact .of_step passive_beforeRoot.unfinished rfl rfl
      | empty | close | characterData => simp [leads] at hevent
    exact hfirst.append (ih hevents)

/-- A document begins with a blank, a bracket or a mark, and not with a letter. -/
theorem IsDocument.not_cons_prefix {b : UInt8} {mark : Bytes} (h : IsDocument front rules)
    (hspace : isSpace b = false) (hbracket : b ≠ byte '<') (hmark : b ≠ 0xEF) : ¬b :: mark <+: front ++ rest := by
  obtain ⟨leading, inner, hwhole, hleads, isValue⟩ := h
  obtain ⟨first, others, rfl, hfirst⟩ := isValue.exists_head
  intro hprefix
  cases front with
  | nil =>
    rw [Document.ofBytes, Markup.withoutMark_of_unmarked (by decide), Document.continued_nil] at hwhole
    simp at hwhole
  | cons c tail =>
    obtain rfl : b = c := (List.cons_prefix_cons.1 hprefix).1
    have hunmarked : ¬Markup.byteOrderMark <+: b :: tail := fun hmarked ↦
      hmark (List.cons_prefix_cons.1 hmarked).1.symm
    rw [Document.ofBytes, Markup.withoutMark_of_unmarked hunmarked,
      Document.continued_of_event (Markup.next_of_ne hbracket tail)] at hwhole
    have hevents := congrArg Document.events hwhole
    cases leading with
    | nil =>
      obtain rfl := (List.cons.inj hevents).1
      cases hfirst
    | cons lead leading =>
      obtain rfl := (List.cons.inj hevents).1
      have hblank := hleads _ (List.mem_cons_self ..)
      simp [leads, hbracket, hspace] at hblank

theorem IsDocument.passes (h : IsDocument front rules) (rest : Bytes) :
    Passes .beforeRoot (Document.ofBytes (front ++ rest)).events (.finished (.dict rules)) := by
  obtain ⟨leading, inner, hwhole, hleads, isValue⟩ := h
  obtain ⟨last, hlast, hconstruct⟩ := isValue.exists_getLast?
  have hlast' : (leading ++ inner).getLast? = some last := by
    rw [List.getLast?_append, hlast, Option.some_or]
  obtain ⟨more, hmore⟩ := Document.ofBytes_append hwhole hlast' hconstruct rest
  have hroot := (passes_leading hleads).append (passes_value isValue [] _ trivial (by simp) rfl)
  rw [hmore]
  exact hroot.append ⟨run_finished _ _, lapses_finished _ _⟩

theorem IsDocument.rootPairs_append (h : IsDocument front rules) (rest : Bytes) :
    rootPairs (front ++ rest) = .ok rules ∧ lapses (front ++ rest) = [] := by
  have hbinary : ¬ascii "bplist" <+: front ++ rest :=
    h.not_cons_prefix (by decide) (by decide) (by decide)
  have passes := h.passes rest
  exact ⟨rootPairs_eq_ok.2 ⟨hbinary, passes.run⟩, passes.lapses⟩

theorem not_exists_isDocument (h : lapses bytes ≠ []) :
    ¬∃ front rules, front <+: bytes ∧ IsDocument front rules := by
  rintro ⟨front, rules, ⟨rest, rfl⟩, isDocument⟩
  exact h (isDocument.rootPairs_append rest).2

end Outline

/-- Whatever is read without lapses begins with a document whose value it is, and whatever begins
with a document is read as that without lapses. -/
theorem rootPairs_iff_isDocument (bytes : Markup.Bytes) (rules : List (String × PropertyList)) :
    (rootPairs bytes = .ok rules ∧ lapses bytes = []) ↔
      ∃ front, front <+: bytes ∧ Outline.IsDocument front rules := by
  constructor
  · rintro ⟨hread, hlapses⟩
    exact Outline.exists_document hread hlapses
  · rintro ⟨front, ⟨rest, rfl⟩, isDocument⟩
    exact isDocument.rootPairs_append rest

example : lapses (Markup.ascii "<plist> <dict><key>a</key> <true/></dict>") = [] := by
  decide +kernel

theorem rootPairs_eq_nil {bytes : Markup.Bytes}
    (h : (rootPairs bytes).toOption.any List.isEmpty = true) : rootPairs bytes = .ok [] := by
  cases hread : rootPairs bytes with
  | error fault => simp [hread, Except.toOption] at h
  | ok pairs =>
    obtain rfl : pairs = [] := by simpa [hread, Except.toOption] using h
    rfl

/-- With lapses a dictionary is taken to end with the dictionary in a key that does not end, and a
key that has no value is lost. -/
theorem rootPairs_unclosedKey :
    (rootPairs (Markup.ascii "<dict><key>a<dict><key></key></dict>") = .ok [] ∧
      ¬∃ front rules, front <+: Markup.ascii "<dict><key>a<dict><key></key></dict>" ∧
        Outline.IsDocument front rules) ∧
    rootPairs (Markup.ascii "<dict><key>a</key></dict>") = .ok [] ∧
      ¬∃ front rules, front <+: Markup.ascii "<dict><key>a</key></dict>" ∧
        Outline.IsDocument front rules :=
  ⟨⟨rootPairs_eq_nil (by decide +kernel), Outline.not_exists_isDocument (by decide +kernel)⟩,
    rootPairs_eq_nil (by decide +kernel), Outline.not_exists_isDocument (by decide +kernel)⟩

end LocalizedAccessors.PropertyList
