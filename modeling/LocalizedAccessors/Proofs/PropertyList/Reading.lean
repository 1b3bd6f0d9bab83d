import LocalizedAccessors.Proofs.PropertyList.Grammar
import LocalizedAccessors.Proofs.PropertyList.Leading

/-!
# Reading what is written

Every element leads to where its value is delivered to what is open around it. So a property list is
read as the rules that it was written for, whatever follows its root, and one that ends before its
root does is never read.
-/

namespace LocalizedAccessors.PropertyList

open Markup (Bytes byte ascii bracketed isSpace Name Attributes Remark)

/-! ## What is passed over -/

section Gaps

variable (opened : List Bytes) {state : State} (h : state.Passive)
include h

theorem leads_remark (remark : Remark) :
    Leads ⟨opened, state⟩ remark.written ⟨opened, state⟩ :=
  Leads.of_reads (Markup.reads_remark opened remark) h.unfinished h.other

theorem leads_filler (filler : Filler) :
    Leads ⟨opened, state⟩ filler.written ⟨opened, state⟩ := by
  cases filler with
  | blank b isBlank =>
    refine leads_plain opened h ?_
    rintro rfl
    exact absurd isBlank (by decide)
  | remark note => exact leads_remark opened h note

theorem leads_gap (gap : Gap) : Leads ⟨opened, state⟩ gap.written ⟨opened, state⟩ := by
  induction gap with
  | nil => exact Leads.nil _
  | cons filler gap ih => exact (leads_filler opened h filler).append ih

theorem leads_scrap (scrap : Scrap) : Leads ⟨opened, state⟩ scrap.written ⟨opened, state⟩ := by
  cases scrap with
  | plain b outside => exact leads_plain opened h outside
  | characterData characters =>
    exact Leads.of_reads (Markup.reads_section opened characters) h.unfinished (h.characterData _)
  | remark note => exact leads_remark opened h note

theorem leads_scraps (scraps : List Scrap) :
    Leads ⟨opened, state⟩ (scraps.flatMap Scrap.written) ⟨opened, state⟩ := by
  induction scraps with
  | nil => exact Leads.nil _
  | cons scrap scraps ih => exact (leads_scrap opened h scrap).append ih

end Gaps

/-! ## Texts -/

section Texts

variable (opened : List Bytes) (element : TextElement) (outer : List Frame)

theorem leads_segment (content : String) (segment : Segment) :
    Leads ⟨opened, .within (.text element content :: outer)⟩ segment.written
      ⟨opened, .within (.text element (content ++ String.ofList segment.meaning) :: outer)⟩ := by
  cases segment with
  | glyph character => exact leads_glyph opened element content outer character
  | characterData chars unclosed =>
    refine Leads.of_reads (Markup.reads_section opened _) (unfinished_text _ _ _) ?_
    rw [step, stepText, Text.Utf8.decodeLenient_encode]
    rfl
  | remark note =>
    refine Leads.of_reads (Markup.reads_remark opened note) (unfinished_text _ _ _) ?_
    simp [step, stepText, Segment.meaning]

theorem leads_segments (content : String) (segments : List Segment) :
    Leads ⟨opened, .within (.text element content :: outer)⟩ (segments.flatMap Segment.written)
      ⟨opened, .within (.text element (content ++ Segment.text segments) :: outer)⟩ := by
  induction segments generalizing content with
  | nil =>
    rw [Segment.text, List.flatMap_nil, List.flatMap_nil, String.ofList_nil, String.append_empty]
    exact Leads.nil _
  | cons segment segments ih =>
    have hrest := ih (content ++ String.ofList segment.meaning)
    have htext : content ++ Segment.text (segment :: segments) =
        content ++ String.ofList segment.meaning ++ Segment.text segments := by
      rw [Segment.text, List.flatMap_cons, String.ofList_append, String.append_assoc]
      rfl
    rw [List.flatMap_cons, htext]
    exact (leads_segment opened element outer content segment).append hrest

end Texts

/-! ## Content between tags -/

theorem leads_around {opened : List Bytes} {state inside inner after : State} {name : Name}
    {content : Bytes} (shell : Shell) (hstate : state.Unfinished) (hinner : inner.Unfinished)
    (hstart : step state (.start name.bytes) = .ok inside)
    (hcontent : Leads ⟨name.bytes :: opened, inside⟩ content ⟨name.bytes :: opened, inner⟩)
    (hclose : step inner (.close name.bytes) = .ok after) :
    Leads ⟨opened, state⟩ (shell.around name content) ⟨opened, after⟩ := by
  have hopening := Leads.of_reads (Markup.reads_start opened name shell.attributes) hstate hstart
  have hclosing := Leads.of_reads (Markup.reads_end opened name shell.blanks) hinner hclose
  exact (hopening.append hcontent).append hclosing

theorem leads_emptyTag {opened : List Bytes} {state after : State} {name : Name}
    (attributes : Attributes) (hstate : state.Unfinished)
    (hstep : step state (.empty name.bytes) = .ok after) :
    Leads ⟨opened, state⟩ (emptyTag name attributes) ⟨opened, after⟩ :=
  Leads.of_reads (Markup.reads_empty opened name attributes) hstate hstep

/-- A key takes the place of one that waits. -/
theorem leads_key (opened : List Bytes) (pairs : List (String × PropertyList))
    (pending : Option String) (outer : List Frame) (key : Key) :
    Leads ⟨opened, .within (.dict pairs pending :: outer)⟩ key.written
      ⟨opened, .within (.dict pairs (some key.meaning) :: outer)⟩ := by
  have hstate := (passive_dict pairs pending outer).unfinished
  cases key with
  | empty attributes => exact leads_emptyTag attributes hstate rfl
  | full shell segments =>
    have hcontent := leads_segments (keyName.bytes :: opened) .key (.dict pairs pending :: outer) ""
      segments
    rw [String.empty_append] at hcontent
    exact leads_around shell hstate (unfinished_text _ _ _) rfl hcontent rfl

/-! ## Elements -/

/-- The state within some frames, or before the root if there are none. -/
def State.around : List Frame → State
  | [] => .beforeRoot
  | frames => .within frames

theorem unfinished_around (frames : List Frame) : (State.around frames).Unfinished := by
  cases frames <;> simp [State.around, State.Unfinished]

/-- Whether an element of this name can stand within some frames. -/
structure Hosts (frames : List Frame) (name : Bytes) : Prop where
  start : step (.around frames) (.start name) = .ok (.within (Frame.opened name :: frames))
  empty : step (.around frames) (.empty name) = deliver (ofEmpty name) frames

theorem hosts_root : Hosts [] dictName.bytes := ⟨rfl, rfl⟩

theorem hosts_dict (pairs : List (String × PropertyList)) (pending : Option String)
    (outer : List Frame) {name : Bytes} (h : name ≠ keyName.bytes) :
    Hosts (.dict pairs pending :: outer) name := by
  have hname : name ≠ ascii "key" := h
  constructor <;> simp [State.around, step, stepDict, hname]

theorem hosts_array (items : List PropertyList) (outer : List Frame) (name : Bytes) :
    Hosts (.array items :: outer) name := ⟨rfl, rfl⟩

theorem OtherName.ne (name : OtherName) :
    name.name.bytes ≠ ascii "key" ∧ name.name.bytes ≠ ascii "string" ∧
      name.name.bytes ≠ ascii "dict" ∧ name.name.bytes ≠ ascii "array" := by
  simpa [keyName, stringName, dictName, arrayName, Name.ofText] using name.other

theorem ofEmpty_name (kind : Kind) : ofEmpty kind.name.bytes = kind.meaning := by
  cases kind with
  | string | dict | array => rfl
  | other name => simp [ofEmpty, Kind.name, Kind.meaning, name.ne]

theorem opened_other (name : OtherName) :
    Frame.opened name.name.bytes = .skipped name.name.bytes 0 := by
  simp [Frame.opened, name.ne]

theorem name_ne_key (element : Element) : element.name.bytes ≠ keyName.bytes := by
  have hstring : stringName.bytes ≠ keyName.bytes := by decide
  have hdict : dictName.bytes ≠ keyName.bytes := by decide
  have harray : arrayName.bytes ≠ keyName.bytes := by decide
  cases element with
  | empty kind =>
    cases kind with
    | string => exact hstring
    | dict => exact hdict
    | array => exact harray
    | other name => exact name.ne.1
  | string => exact hstring
  | dict => exact hdict
  | array => exact harray
  | other name => exact name.ne.1

mutual

theorem leads_element (opened : List Bytes) {frames : List Frame} {after : State}
    (element : Element) (hhost : Hosts frames element.name.bytes)
    (hdeliver : deliver element.meaning frames = .ok after) :
    Leads ⟨opened, .around frames⟩ element.written ⟨opened, after⟩ := by
  have hstate := unfinished_around frames
  cases element with
  | empty kind attributes =>
    refine leads_emptyTag attributes hstate (hhost.empty.trans ?_)
    rw [← hdeliver]
    exact congrArg (deliver · frames) (ofEmpty_name kind)
  | string shell segments =>
    have hcontent := leads_segments (stringName.bytes :: opened) .string frames "" segments
    rw [String.empty_append] at hcontent
    exact leads_around shell hstate (unfinished_text _ _ _) hhost.start hcontent hdeliver
  | dict shell members =>
    have hcontent := leads_members (dictName.bytes :: opened) [] frames members
    exact leads_around shell hstate (passive_dict _ _ _).unfinished hhost.start hcontent hdeliver
  | array shell items =>
    have hcontent := leads_items (arrayName.bytes :: opened) [] frames items
    exact leads_around shell hstate (passive_array _ _).unfinished hhost.start hcontent hdeliver
  | other name shell scraps =>
    have hcontent := leads_scraps (name.name.bytes :: opened)
      (passive_skipped name.name.bytes 0 frames) scraps
    have hstart := hhost.start
    rw [Element.name, opened_other name] at hstart
    refine leads_around shell hstate (passive_skipped _ _ _).unfinished hstart hcontent ?_
    simpa [step, stepSkipped, Element.meaning] using hdeliver

theorem leads_members (opened : List Bytes) (pairs : List (String × PropertyList))
    (outer : List Frame) (members : Members) :
    Leads ⟨opened, .within (.dict pairs none :: outer)⟩ members.written
      ⟨opened, .within (.dict (pairs ++ members.meaning) none :: outer)⟩ := by
  cases members with
  | nil gap =>
    rw [Members.meaning, List.append_nil]
    exact leads_gap opened (passive_dict pairs none outer) gap
  | cons gap key between value rest =>
    have hgap := leads_gap opened (passive_dict pairs none outer) gap
    have hkey := leads_key opened pairs none outer key
    have hbetween := leads_gap opened (passive_dict pairs (some key.meaning) outer) between
    have hvalue := leads_element opened value
      (hosts_dict pairs (some key.meaning) outer (name_ne_key value)) rfl
    have hrest := leads_members opened (pairs ++ [(key.meaning, value.meaning)]) outer rest
    rw [List.append_assoc] at hrest
    exact (((hgap.append hkey).append hbetween).append hvalue).append hrest

theorem leads_items (opened : List Bytes) (front : List PropertyList) (outer : List Frame)
    (items : Items) :
    Leads ⟨opened, .within (.array front :: outer)⟩ items.written
      ⟨opened, .within (.array (front ++ items.meaning) :: outer)⟩ := by
  cases items with
  | nil gap =>
    rw [Items.meaning, List.append_nil]
    exact leads_gap opened (passive_array front outer) gap
  | cons gap item rest =>
    have hgap := leads_gap opened (passive_array front outer) gap
    have hitem := leads_element opened item (hosts_array front outer item.name.bytes) rfl
    have hrest := leads_items opened (front ++ [item.meaning]) outer rest
    rw [List.append_assoc] at hrest
    exact (hgap.append hitem).append hrest

end

/-! ## Documents -/

theorem leads_preamble (preamble : Preamble) :
    Leads ⟨[], .beforeRoot⟩ preamble.written ⟨[], .beforeRoot⟩ := by
  cases preamble with
  | filler piece => exact leads_filler [] passive_beforeRoot piece
  | doctype declaration stray =>
    have hdoctype : Leads ⟨[], .beforeRoot⟩ declaration.written ⟨[], .beforeRoot⟩ :=
      Leads.of_reads (Markup.reads_doctype [] declaration) passive_beforeRoot.unfinished
        passive_beforeRoot.other
    exact hdoctype.append (leads_scraps [] passive_beforeRoot stray)

theorem leads_prolog (prolog : List Preamble) :
    Leads ⟨[], .beforeRoot⟩ (prolog.flatMap Preamble.written) ⟨[], .beforeRoot⟩ := by
  induction prolog with
  | nil => exact Leads.nil _
  | cons preamble prolog ih => exact (leads_preamble preamble).append ih

theorem leads_root (opened : List Bytes) (root : Root) :
    Leads ⟨opened, .beforeRoot⟩ root.element.written ⟨opened, .finished (.dict root.rules)⟩ := by
  cases root with
  | empty attributes => exact leads_element opened (.empty .dict attributes) hosts_root rfl
  | full shell members => exact leads_element opened (.dict shell members) hosts_root rfl

theorem exists_leads_body (serialization : Serialization) :
    ∃ opened, Leads ⟨[], .beforeRoot⟩ serialization.body
      ⟨opened, .finished (.dict serialization.rules)⟩ := by
  have hprolog := leads_prolog serialization.prolog
  rw [Serialization.body, Serialization.opening]
  cases serialization.wrapper with
  | none => exact ⟨[], hprolog.append (leads_root [] serialization.root)⟩
  | some wrapper =>
    obtain ⟨attributes, gap⟩ := wrapper
    have hopening : Leads ⟨[], .beforeRoot⟩ (bracketed (Markup.startContent wrapperName attributes))
        ⟨[wrapperName.bytes], .beforeRoot⟩ :=
      Leads.of_reads (Markup.reads_start [] wrapperName attributes) passive_beforeRoot.unfinished rfl
    have hgap := leads_gap [wrapperName.bytes] passive_beforeRoot gap
    exact ⟨_, hprolog.append ((hopening.append hgap).append (leads_root _ serialization.root))⟩

/-! ## The beginning of a document -/

/-- The bytes with which the body of a property list can begin. -/
def bodyMarks : Bytes := ascii "< \t\r\n"

/-- Whether some bytes begin like the body of a property list, if they begin at all. -/
def Begins (bytes : Bytes) : Prop := ∀ b ∈ bytes.head?, b ∈ bodyMarks

theorem Begins.front {front bytes : Bytes} (h : Begins bytes) (hfront : front <+: bytes) :
    Begins front := by
  obtain ⟨rest, rfl⟩ := hfront
  cases front with
  | nil => simp [Begins]
  | cons b front => exact h

theorem begins_bracketed (content rest : Bytes) : Begins (bracketed content ++ rest) := by
  rintro b ⟨⟩
  decide

theorem begins_filler (filler : Filler) (rest : Bytes) : Begins (filler.written ++ rest) := by
  cases filler with
  | blank b isBlank =>
    rintro c ⟨⟩
    simp only [isSpace, Bool.or_eq_true, beq_iff_eq] at isBlank
    rcases isBlank with ((rfl | rfl) | rfl) | rfl <;> decide
  | remark note => exact begins_bracketed note.content rest

theorem begins_body (serialization : Serialization) (rest : Bytes) :
    Begins (serialization.body ++ rest) := by
  have hroot : Begins (serialization.root.element.written ++ rest) := by
    cases serialization.root with
    | empty attributes => exact begins_bracketed _ rest
    | full shell members =>
      simp only [Root.element, Element.written, Shell.around, List.append_assoc]
      exact begins_bracketed _ _
  have hopening : Begins (serialization.opening ++ (serialization.root.element.written ++ rest)) := by
    rw [Serialization.opening]
    cases serialization.wrapper with
    | none => exact hroot
    | some wrapper =>
      rw [List.append_assoc]
      exact begins_bracketed _ _
  simp only [Serialization.body, List.append_assoc]
  cases serialization.prolog with
  | nil => exact hopening
  | cons preamble prolog =>
    rw [List.flatMap_cons, List.append_assoc]
    cases preamble with
    | filler piece => exact begins_filler piece _
    | doctype declaration stray =>
      rw [Preamble.written, List.append_assoc]
      exact begins_bracketed _ _

theorem not_cons_prefix_of_begins {b : UInt8} {mark bytes : Bytes} (h : Begins bytes)
    (hb : b ∉ bodyMarks) : ¬b :: mark <+: bytes := by
  rintro ⟨rest, rfl⟩
  exact hb (h b rfl)

/-! ## From bytes to rules -/

/-- Rules are read where the events of a document finish a dictionary. -/
theorem rootPairs_eq_ok {bytes : Bytes} {rules : List (String × PropertyList)} :
    rootPairs bytes = .ok rules ↔ ¬ascii "bplist" <+: bytes ∧
      run .beforeRoot (Markup.Document.ofBytes bytes).events = .ok (.finished (.dict rules)) := by
  rw [rootPairs, ofDocument]
  by_cases hbinary : ascii "bplist" <+: bytes
  · simp [hbinary, bind, Except.bind, throw, throwThe, MonadExceptOf.throw]
  · cases hrun : run .beforeRoot (Markup.Document.ofBytes bytes).events with
    | error fault => simp [hbinary, bind, Except.bind]
    | ok state =>
      cases state with
      | beforeRoot | within => simp [hbinary, bind, Except.bind, throw, throwThe, MonadExceptOf.throw]
      | finished root =>
        cases root <;> simp [hbinary, bind, Except.bind, pure, Except.pure, throw, throwThe,
          MonadExceptOf.throw]

theorem rootPairs_of_outcome {bytes : Bytes} {pairs : List (String × PropertyList)}
    (hbinary : ¬ascii "bplist" <+: bytes)
    (h : Place.outcome ⟨[], .beforeRoot⟩ (Markup.withoutMark bytes) = some (.dict pairs)) :
    rootPairs bytes = .ok pairs := by
  refine rootPairs_eq_ok.2 ⟨hbinary, ?_⟩
  rw [Place.outcome] at h
  split at h
  · next root hrun =>
    obtain rfl : root = .dict pairs := Option.some.inj h
    exact hrun
  · simp at h

theorem rootPairs_of_outcome_eq_none {bytes : Bytes}
    (h : Place.outcome ⟨[], .beforeRoot⟩ (Markup.withoutMark bytes) = none) :
    ∃ fault, rootPairs bytes = .error fault := by
  cases hread : rootPairs bytes with
  | error fault => exact ⟨fault, rfl⟩
  | ok rules =>
    have hrun := (rootPairs_eq_ok.1 hread).2
    rw [Markup.Document.ofBytes] at hrun
    simp [Place.outcome, hrun] at h

theorem rootPairs_written (serialization : Serialization) (rest : Bytes) :
    rootPairs (serialization.written ++ rest) = .ok serialization.rules := by
  obtain ⟨opened, hbody⟩ := exists_leads_body serialization
  have houtcome : Place.outcome ⟨[], .beforeRoot⟩ (serialization.body ++ rest) =
      some (.dict serialization.rules) := by
    rw [hbody.whole, outcome_finished]
  have hbegins := begins_body serialization rest
  rw [Serialization.written, Serialization.mark]
  split
  · rw [List.append_assoc]
    refine rootPairs_of_outcome (fun hbinary ↦ ?_) ?_
    · obtain ⟨tail, htail⟩ := hbinary
      exact absurd (List.cons.inj htail).1 (by decide)
    · rw [Markup.withoutMark_append, houtcome]
  · rw [List.nil_append]
    refine rootPairs_of_outcome (not_cons_prefix_of_begins hbegins (by decide)) ?_
    rw [Markup.withoutMark_of_unmarked (not_cons_prefix_of_begins hbegins (by decide)), houtcome]

/-- A mark that is cut off is text before the root. -/
theorem outcome_of_mark_cut {front : Bytes} (hfront : front <+: Markup.byteOrderMark) :
    Place.outcome ⟨[], .beforeRoot⟩ front = none := by
  have hmark : ∀ b ∈ Markup.byteOrderMark, (b != byte '<') = true :=
    List.all_eq_true.1 (by decide)
  have hplain : ∀ b ∈ front, (b != byte '<') = true := fun b hb ↦ hmark b (hfront.subset hb)
  rw [outcome_dropWhile passive_beforeRoot, List.dropWhile_eq_nil_iff.2 hplain,
    outcome_nil passive_beforeRoot.unfinished]

theorem rootPairs_cut (serialization : Serialization) {front : Bytes}
    (hfront : front <+: serialization.written) (hne : front ≠ serialization.written) :
    ∃ fault, rootPairs front = .error fault := by
  obtain ⟨opened, hbody⟩ := exists_leads_body serialization
  apply rootPairs_of_outcome_eq_none
  rw [Serialization.written, Serialization.mark] at hfront hne
  split at hfront
  · next hmarked =>
    rw [if_pos hmarked] at hne
    obtain ⟨hcut, hshort⟩ | ⟨deeper, rfl, hdeeper⟩ := Markup.prefix_or_eq_append hfront
    · have hunmarked : ¬Markup.byteOrderMark <+: front := fun hmark ↦
        hshort (hcut.eq_of_length_le hmark.length_le)
      rw [Markup.withoutMark_of_unmarked hunmarked, outcome_of_mark_cut hcut]
    · rw [Markup.withoutMark_append]
      exact hbody.cut deeper hdeeper fun heq ↦ hne (by rw [heq])
  · next hmarked =>
    rw [if_neg hmarked] at hne
    have hbegins : Begins front := (begins_body serialization []).front (by simpa using hfront)
    rw [Markup.withoutMark_of_unmarked (not_cons_prefix_of_begins hbegins (by decide))]
    exact hbody.cut front hfront hne

/-- Every list of rules can be written, and in whatever way it is written it is read back, with any
bytes behind it. What is cut off before the end of its root is never read. -/
theorem rootPairs_serialization :
    (∀ rules, ∃ serialization : Serialization, serialization.rules = rules) ∧
      ∀ serialization : Serialization,
        (∀ rest, rootPairs (serialization.written ++ rest) = .ok serialization.rules) ∧
          ∀ front, front <+: serialization.written → front ≠ serialization.written →
            ∃ fault, rootPairs front = .error fault :=
  ⟨fun rules ↦ ⟨_, rules_ofRules rules⟩, fun serialization ↦
    ⟨rootPairs_written serialization, fun _ hfront hne ↦ rootPairs_cut serialization hfront hne⟩⟩

/-- A document type that ends at a `>` which was meant to be quoted, and a root behind it. -/
def quotedRoot : Serialization where
  marked := false
  prolog := [.doctype
    { body := ascii " plist SYSTEM \""
      named := ⟨byte 'p', by decide, by decide⟩
      nested := fun _ hfront ↦
        absurd (hfront.subset (List.mem_append_right _ (List.mem_singleton_self _))) (by decide)
      balanced := by decide } []]
  wrapper := none
  root := .empty Attributes.none

/-- Quotation marks do not keep brackets apart in a document type. Here the root is taken from a
system identifier; the true root is not looked at, nor is it missed. -/
theorem rootPairs_quotedRoot :
    (Serialization.ofRules [("a", .string "b")]).written =
        ascii "<dict><key>a</key><string>b</string></dict>" ∧
      rootPairs (ascii "<!DOCTYPE plist SYSTEM \"><dict/>\">" ++
        ascii "<dict><key>a</key><string>b</string></dict>") = .ok [] ∧
      rootPairs (ascii "<!DOCTYPE plist SYSTEM \"><dict/>") = .ok [] := by
  have hquoted : quotedRoot.written = ascii "<!DOCTYPE plist SYSTEM \"><dict/>" := by decide
  have hread := rootPairs_written quotedRoot
  rw [hquoted] at hread
  have hsplit : ascii "<!DOCTYPE plist SYSTEM \"><dict/>\">" =
      ascii "<!DOCTYPE plist SYSTEM \"><dict/>" ++ ascii "\">" := by decide
  refine ⟨by decide, ?_, ?_⟩
  · rw [hsplit, List.append_assoc]
    exact hread _
  · have hnothing := hread []
    rwa [List.append_nil] at hnothing

end LocalizedAccessors.PropertyList
