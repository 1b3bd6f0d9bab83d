import LocalizedAccessors.Accessor.Source
import LocalizedAccessors.Proofs.Tree.Trie
import Mathlib.Data.Bool.AllAny

/-!
# The characters of names

Names are made of pieces of keys, to which only some characters of Swift are added: letters and
digits, colons and commas, backticks, angle brackets. A character that is not among these occurs in
a name only if it occurs in the key.
-/

namespace LocalizedAccessors

namespace Text

/-- Whether a character does not occur in a text. -/
def Lacks (c : Char) (text : String) : Prop := c ∉ text.toList

instance (c : Char) (text : String) : Decidable (Lacks c text) :=
  inferInstanceAs (Decidable (c ∉ text.toList))

/-- Characters that are never added to what a name is made of. -/
def foreigners : List Char := ['\n', '\"', '(']

def Foreign (c : Char) : Prop := c ∈ foreigners

/-- A fixed text lacks a foreign character if it lacks each of them. -/
theorem Foreign.lacks {c : Char} (foreign : Foreign c) {text : String}
    (h : foreigners.all (fun d ↦ Lacks d text) = true) : Lacks c text :=
  List.all_iff_forall_prop.1 h c foreign

namespace Lacks

variable {c : Char}

@[simp] theorem append_iff {front back : String} :
    Lacks c (front ++ back) ↔ Lacks c front ∧ Lacks c back := by
  simp [Lacks]

theorem empty (c : Char) : Lacks c "" := by simp [Lacks]

theorem intercalate {separator : String} {texts : List String} (hseparator : Lacks c separator)
    (h : ∀ text ∈ texts, Lacks c text) : Lacks c (separator.intercalate texts) := by
  induction texts with
  | nil => exact empty c
  | cons first rest ih =>
    have hrest := ih fun text htext ↦ h text (List.mem_cons_of_mem _ htext)
    have hfirst := h first (List.mem_cons_self ..)
    cases rest with
    | nil => simpa using hfirst
    | cons second others =>
      rw [String.intercalate_cons_cons]
      simp [hfirst, hseparator, hrest]

/-- What is cut out of a text has no other characters. -/
theorem of_mem_pieces {separator : Char} {text piece : String} (h : Lacks c text)
    (hpiece : piece ∈ pieces separator text) : Lacks c piece :=
  fun hmem ↦ h ((Text.of_mem_pieces hpiece).2.2 hmem)

section Foreign

variable (foreign : Foreign c)
include foreign

theorem quotedIn {reserved : List String} {name : String} (h : Lacks c name) :
    Lacks c (Swift.quotedIn reserved name) := by
  have hbacktick : Lacks c "`" := foreign.lacks (by decide +kernel)
  unfold Swift.quotedIn
  split
  · simp [h, hbacktick]
  · exact h

theorem toString_nat (n : Nat) : Lacks c (toString n) := by
  have hdigit : ∀ d ∈ foreigners, d.isDigit = false := List.all_iff_forall_prop.1 (by decide)
  intro hmem
  rw [Nat.toString_eq_ofList_toDigits, String.toList_ofList] at hmem
  have := Nat.isDigit_of_mem_toDigits (by decide) (by decide) hmem
  simp [hdigit c foreign] at this

theorem indent (depth : Nat) : Lacks c (NamespaceTree.indent depth) := by
  have hblank : ∀ d ∈ foreigners, d ≠ ' ' := List.all_iff_forall_prop.1 (by decide)
  simp [Lacks, NamespaceTree.indent, hblank c foreign]

theorem modifier (access : AccessLevel) : Lacks c access.modifier := by
  apply foreign.lacks
  cases access <;> decide +kernel

theorem swiftType (kind : ArgumentKind) : Lacks c kind.swiftType := by
  apply foreign.lacks
  cases kind <;> decide +kernel

end Foreign

end Lacks

/-! ## Upper case -/

theorem toNat_ofNat_eq (code : Nat) :
    (Char.ofNat code).toNat = code ∨ Char.ofNat code = '\x00' := by
  by_cases hvalid : code.isValidChar
  · left
    rw [Char.ofNat, dif_pos hvalid]
    rfl
  · right
    rw [Char.ofNat, dif_neg hvalid]
    rfl

/-- A character that no other one has as its upper case only comes from itself. -/
theorem eq_of_mem_uppercase_of_unreached {c d : Char} (hnull : d ≠ '\x00')
    (hlong : ∀ row ∈ longUppercases, d.toNat ∉ row.2)
    (hruns : ∀ run ∈ caseRuns, d.toNat < run.target ∨ run.image run.last < d.toNat)
    (h : d ∈ uppercase c) : d = c := by
  have hother {code : Nat} (hcode : d.toNat ≠ code) : d ≠ Char.ofNat code := by
    rintro rfl
    rcases toNat_ofNat_eq code with heq | hzero
    · exact hcode heq
    · exact hnull hzero
  unfold uppercase at h
  split at h
  · next codes hlookup =>
    obtain ⟨code, hcode, heq⟩ := List.mem_map.1 h
    obtain ⟨front, back, htable, -⟩ := List.lookup_eq_some_iff.1 hlookup
    have hrow : (c.toNat, codes) ∈ longUppercases := by simp [htable]
    have hne : d.toNat ≠ code := fun hcodes ↦ hlong _ hrow (hcodes ▸ hcode)
    exact absurd heq.symm (hother hne)
  · split at h
    · next run hrun =>
      have hcontains := List.find?_some hrun
      have houtside := hruns run (List.mem_of_find?_eq_some hrun)
      have hne : d.toNat ≠ run.image c.toNat := by
        simp only [CaseRun.contains, Bool.and_eq_true, decide_eq_true_eq] at hcontains
        simp only [CaseRun.image] at houtside ⊢
        omega
      exact absurd (List.mem_singleton.1 h) (hother hne)
    · exact List.mem_singleton.1 h

/-- Upper case only leads to letters and marks, all of which come after the ASCII digits. -/
theorem eq_of_mem_uppercase {c d : Char} (hnull : d ≠ '\x00') (hd : d.toNat < 65)
    (h : d ∈ uppercase c) : d = c := by
  have hlong : ∀ row ∈ longUppercases, ∀ code ∈ row.2, 65 ≤ code := by decide +kernel
  have hruns : ∀ run ∈ caseRuns, 65 ≤ run.target := by decide +kernel
  refine eq_of_mem_uppercase_of_unreached hnull (fun row hrow hmem ↦ ?_) (fun run hrun ↦ ?_) h
  · exact absurd (hlong row hrow _ hmem) (Nat.not_le_of_lt hd)
  · exact .inl (hd.trans_le (hruns run hrun))

theorem Lacks.structName {c : Char} (foreign : Foreign c) {identifier : String}
    (h : Lacks c identifier) : Lacks c (structName identifier) := by
  have hsmall : ∀ d ∈ foreigners, d ≠ '\x00' ∧ d.toNat < 65 :=
    List.all_iff_forall_prop.1 (by decide)
  obtain ⟨hnull, hlt⟩ := hsmall c foreign
  unfold LocalizedAccessors.structName capitalized
  split
  · exact empty c
  · next first rest heq =>
    rw [Lacks, heq, List.mem_cons, not_or] at h
    rw [Lacks, String.toList_ofList, List.mem_append, not_or]
    exact ⟨fun hmem ↦ h.1 (eq_of_mem_uppercase hnull hlt hmem), h.2⟩

end Text

/-! ## What is made of keys -/

open Text (Lacks Foreign)

/-- Whether a character occurs in nothing that is written of an entry but its key. -/
structure Entry.Lacks (c : Char) (entry : Entry) : Prop where
  name : Text.Lacks c entry.name
  parameterList : Text.Lacks c entry.parameterList
  formatArguments : Text.Lacks c entry.formatArguments

section Foreign

variable {c : Char} (foreign : Foreign c)
include foreign

theorem Binding.lacks_ofPiece (index : Nat) {piece : String} (h : Lacks c piece) :
    Lacks c (ofPiece index piece).parameter ∧ Lacks c (ofPiece index piece).privateName := by
  have harg : Lacks c "arg" := foreign.lacks (by decide +kernel)
  have hprivate : Lacks c ("arg" ++ toString index) :=
    Lacks.append_iff.2 ⟨harg, .toString_nat foreign index⟩
  have hspace : Lacks c " " := foreign.lacks (by decide +kernel)
  have hlabel : Lacks c ((ofPiece index piece).label.getD "_") := by
    rw [ofPiece]
    split
    · exact (foreign.lacks (by decide +kernel) : Lacks c "_")
    · exact h.quotedIn foreign
  exact ⟨Lacks.append_iff.2 ⟨Lacks.append_iff.2 ⟨hlabel, hspace⟩, hprivate⟩, hprivate⟩

theorem Entry.lacks_of_make {path key identifier : String} {arguments : List ArgumentKind}
    {entry : Entry} (h : Entry.make path key identifier arguments = .ok entry)
    (hidentifier : Text.Lacks c identifier) : entry.Lacks c := by
  have hpiece {piece : String} (hmem : piece ∈ Text.pieces '_' identifier) : Text.Lacks c piece :=
    hidentifier.of_mem_pieces hmem
  simp only [Entry.make] at h
  split at h
  · obtain rfl := Except.ok.inj h
    have hcomma : Text.Lacks c ", " := foreign.lacks (by decide +kernel)
    have hcolon : Text.Lacks c ": " := foreign.lacks (by decide +kernel)
    have hbinding {binding : Binding}
        (hmem : binding ∈ bindingsOf (Text.pieces '_' identifier).tail) :
        Text.Lacks c binding.parameter ∧ Text.Lacks c binding.privateName := by
      obtain ⟨index, hindex, rfl⟩ := List.mem_mapIdx.1 hmem
      exact Binding.lacks_ofPiece foreign index
        (hpiece (List.mem_of_mem_tail (List.getElem_mem hindex)))
    refine ⟨.quotedIn foreign ?_, .intercalate hcomma ?_, .intercalate hcomma ?_⟩
    · cases hpieces : Text.pieces '_' identifier with
      | nil => exact .empty c
      | cons first rest => exact hpiece (by simp [hpieces])
    · intro text htext
      rw [← List.map_uncurry_zip_eq_zipWith] at htext
      obtain ⟨⟨binding, kind⟩, hmem, rfl⟩ := List.mem_map.1 htext
      have hparameter := (hbinding (List.of_mem_zip hmem).1).1
      exact Lacks.append_iff.2
        ⟨Lacks.append_iff.2 ⟨hparameter, hcolon⟩, .swiftType foreign kind⟩
    · intro text htext
      obtain ⟨binding, hmem, rfl⟩ := List.mem_map.1 htext
      exact (hbinding hmem).2
  · simp at h

omit foreign in
theorem Key.lacks_leaf {key : String} (h : Lacks c key) : Lacks c (leaf key) := by
  unfold leaf
  cases hlast : (segments key).getLast? with
  | none => exact .empty c
  | some last => exact h.of_mem_pieces (List.mem_of_getLast? hlast)

theorem Call.lacks_entry? {call : Call} {entry : Entry} (h : call.entry? = some entry)
    (hkey : Lacks c call.key) : entry.Lacks c :=
  Entry.lacks_of_make foreign (make_eq_ok h) (Key.lacks_leaf hkey)

end Foreign

namespace NamespaceTree

/-- Every entry of a tree is that of one of the calls that made the tree. -/
theorem exists_call_of_mem_entriesOf {calls : List Call} {site : Site} {entry : Entry}
    (h : entry ∈ (empty.run calls).1.entriesOf site) :
    ∃ call ∈ calls, call.entry? = some entry := by
  have here : (empty.run calls).1.Has site := by
    by_contra hnot
    simp [Arena.entriesOf_eq_nil hnot] at h
  rw [← entriesAt_sitePath (coherent_run_empty calls) here, entriesAt_run coherent_empty,
    entriesAt_empty, List.nil_append] at h
  obtain ⟨call, hcall, hmade⟩ := List.mem_filterMap.1 h
  exact ⟨call, List.mem_of_mem_filter hcall, hmade⟩

/-- Whether a character occurs in no name of a tree. -/
structure Lacks (c : Char) (tree : NamespaceTree) : Prop where
  identifierOf : ∀ {id}, id < tree.nodeCount → Text.Lacks c (tree.identifierOf id)
  entriesOf : ∀ {site}, ∀ entry ∈ tree.entriesOf site, entry.Lacks c

theorem lacks_run {c : Char} (foreign : Foreign c) {calls : List Call}
    (h : ∀ call ∈ calls, Text.Lacks c call.key) : (empty.run calls).1.Lacks c where
  identifierOf {id} hid := by
    obtain ⟨call, hcall, -, -, hbegins⟩ :=
      (mem_namespaces_run_empty calls _).1 (mem_namespaces.2 ⟨id, hid, rfl⟩)
    have hsegment : (empty.run calls).1.identifierOf id ∈ Key.enclosing call.key :=
      hbegins.subset (by simp [path_eq _ id])
    exact (h call hcall).of_mem_pieces ((List.dropLast_prefix _).subset hsegment)
  entriesOf entry hentry := by
    obtain ⟨call, hcall, hmade⟩ := exists_call_of_mem_entriesOf hentry
    exact Call.lacks_entry? foreign hmade (h call hcall)

end NamespaceTree

end LocalizedAccessors
