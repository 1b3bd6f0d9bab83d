import LocalizedAccessors.Proofs.Source.Characters

/-!
# The lines of generated source

Every line is written without a line feed, as long as no key and no name has one: keys are written
as literals, in which line feeds are escaped, and everything else comes from segments of keys. So
cutting the source at its line feeds gives back the lines that it was joined from.
-/

namespace LocalizedAccessors

/-- A text without a line feed. -/
def Text.OneLine (text : String) : Prop := '\n' ∉ text.toList

instance (text : String) : Decidable (Text.OneLine text) :=
  inferInstanceAs (Decidable ('\n' ∉ text.toList))

namespace Text.OneLine

@[simp] theorem append_iff {front back : String} :
    OneLine (front ++ back) ↔ OneLine front ∧ OneLine back := by
  simp [OneLine]

theorem literal (text : String) : OneLine (Swift.literal text) :=
  Swift.notMem_literal (by decide) text

theorem foreign_lineFeed : Foreign '\n' := by simp [Foreign, foreigners]

theorem quotedIn {reserved : List String} {name : String} (h : OneLine name) :
    OneLine (Swift.quotedIn reserved name) := Lacks.quotedIn foreign_lineFeed h

theorem indent (depth : Nat) : OneLine (NamespaceTree.indent depth) :=
  Lacks.indent foreign_lineFeed depth

theorem modifier (access : AccessLevel) : OneLine access.modifier :=
  Lacks.modifier foreign_lineFeed access

theorem structName {identifier : String} (h : OneLine identifier) :
    OneLine (structName identifier) := Lacks.structName foreign_lineFeed h

end Text.OneLine

/-! ## What keys without a line feed leave in a tree -/

open Text (OneLine)

/-- Whether an entry is declared without a line feed. -/
structure Entry.OnOneLine (entry : Entry) : Prop where
  name : OneLine entry.name
  parameterList : OneLine entry.parameterList
  formatArguments : OneLine entry.formatArguments

namespace NamespaceTree

/-- Whether a tree is written with one line to each name. -/
structure OnLines (tree : NamespaceTree) : Prop where
  identifierOf : ∀ {id}, id < tree.nodeCount → OneLine (tree.identifierOf id)
  entriesOf : ∀ {site}, tree.Has site → ∀ entry ∈ tree.entriesOf site, entry.OnOneLine

theorem onLines_run {calls : List Call} (h : ∀ call ∈ calls, OneLine call.key) :
    (empty.run calls).1.OnLines where
  identifierOf := (lacks_run OneLine.foreign_lineFeed h).identifierOf
  entriesOf _ entry hentry := by
    have lacks := (lacks_run OneLine.foreign_lineFeed h).entriesOf entry hentry
    exact ⟨lacks.name, lacks.parameterList, lacks.formatArguments⟩

variable {tree : NamespaceTree} {style : SourceStyle}

theorem oneLine_lookup (style : SourceStyle) (key : String) : OneLine (style.lookup key) := by
  have hbundle : OneLine (if style.package then ", bundle: .module" else "") := by
    split <;> decide +kernel
  unfold SourceStyle.lookup
  simp only [OneLine.append_iff, OneLine.literal, hbundle, and_true]
  refine ⟨⟨by decide +kernel, ?_⟩, by decide +kernel⟩
  split
  · exact OneLine.append_iff.2 ⟨by decide +kernel, .literal _⟩
  · decide +kernel

theorem oneLine_declaration (depth : Nat) {entry : Entry} (h : entry.OnOneLine) :
    ∀ line ∈ declaration style depth entry, OneLine line := by
  intro line hline
  unfold declaration at hline
  split at hline
  · obtain rfl := List.mem_singleton.1 hline
    simp only [OneLine.append_iff, OneLine.indent, OneLine.modifier, h.name, oneLine_lookup,
      true_and, and_true]
    decide +kernel
  · simp only [List.mem_cons, List.not_mem_nil, or_false] at hline
    obtain rfl | rfl | rfl := hline
    · simp only [OneLine.append_iff, OneLine.indent, OneLine.modifier, h.name, h.parameterList,
        true_and, and_true]
      decide +kernel
    · simp only [OneLine.append_iff, OneLine.indent, oneLine_lookup, h.formatArguments, true_and,
        and_true]
      decide +kernel
    · simp only [OneLine.append_iff, OneLine.indent, true_and]
      decide +kernel

theorem oneLine_structHeader {name : String} (h : OneLine name) :
    OneLine (structHeader style name) := by
  have hname : OneLine (Swift.escapedName name) := h.quotedIn
  unfold structHeader
  simp only [OneLine.append_iff, OneLine.modifier, hname, true_and, and_true]
  decide +kernel

theorem oneLine_body (lines : tree.OnLines) (depth : Nat) {site : Site}
    (here : tree.Has site) : ∀ line ∈ tree.body style depth site, OneLine line := by
  induction hroom : tree.room site using Nat.strongRecOn generalizing depth site with
  | ind room ih =>
    subst hroom
    intro line hline
    rw [body_eq, List.mem_append, List.mem_flatMap, List.mem_flatMap] at hline
    rcases hline with ⟨entry, hentry, hline⟩ | ⟨id, hid, hline⟩
    · exact oneLine_declaration depth
        (lines.entriesOf here entry (List.mem_mergeSort.1 hentry)) line hline
    · have hchild := List.mem_mergeSort.1 hid
      have hid := tree.ordered.child_lt hchild
      rw [List.mem_append, List.mem_cons, List.mem_cons, List.mem_singleton] at hline
      obtain (rfl | rfl | hinner) | rfl := hline
      · decide +kernel
      · exact OneLine.append_iff.2
          ⟨.indent depth, oneLine_structHeader (lines.identifierOf hid).structName⟩
      · exact ih _ (room_lt hchild) (depth + 1) (Arena.has_some.2 hid) rfl line hinner
      · exact OneLine.append_iff.2 ⟨.indent depth, by decide +kernel⟩

end NamespaceTree

/-- Cutting joined lines gives them back, with an empty one after the last line feed. -/
theorem Text.fields_join {lines : List String} (h : ∀ line ∈ lines, OneLine line) :
    Text.fields '\n' (String.join (lines.map (· ++ "\n"))) = lines ++ [""] := by
  induction lines with
  | nil => rfl
  | cons line rest ih =>
    have hline : '\n' ∉ line.toList := h line (List.mem_cons_self ..)
    have hrest := ih fun other hother ↦ h other (List.mem_cons_of_mem _ hother)
    simp only [Text.fields, String.toList_join] at hrest ⊢
    have hcons : ((line :: rest).map (· ++ "\n")).flatMap String.toList =
        line.toList ++ '\n' :: (rest.map (· ++ "\n")).flatMap String.toList := by simp
    rw [hcons, List.splitOn_append_cons_self_of_not_mem hline, List.map_cons, hrest,
      String.ofList_toList, List.cons_append]

end LocalizedAccessors
