import LocalizedAccessors.Proofs.Tree.Growth

/-!
# Insertion of keys

What one insertion does to the tree, told by the key alone. A skipped key changes nothing. Any other
key adds the namespaces around it, and its entry if the number of its labels is right; whether it
is depends on the key and the arguments but not on the tree.
-/

namespace LocalizedAccessors

namespace Key

/-- A key is skipped if it has no last segment with something other than underscores in it. -/
def Skipped (key : String) : Prop := ∀ leaf ∈ (segments key).getLast?, ∀ c ∈ leaf.toList, c = '_'

/-- The segments before the last one, which are the namespaces around the entry. -/
def enclosing (key : String) : Path := (segments key).dropLast

/-- The last segment. -/
def leaf (key : String) : String := (segments key).getLast?.getD ""

instance (key : String) : Decidable (Skipped key) :=
  decidable_of_iff (((segments key).getLast?.all fun leaf ↦ leaf.toList.all (· == '_')) = true) <| by
    cases h : (segments key).getLast? <;> simp [Skipped, h]

theorem place_of_skipped {key : String} (h : Skipped key) :
    ∃ reason, place key = .error reason := by
  unfold place
  split
  · exact ⟨_, rfl⟩
  · next leaf hleaf =>
    have hall : leaf.toList.all (· == '_') = true := by simpa using h leaf hleaf
    rw [if_pos hall]
    exact ⟨_, rfl⟩

theorem place_of_not_skipped {key : String} (h : ¬Skipped key) :
    place key = .ok ⟨enclosing key, leaf key⟩ := by
  unfold place
  split
  · next hnone => exact absurd (by simp [Skipped, hnone]) h
  · next last hlast =>
    have hall : ¬last.toList.all (· == '_') = true := fun hall ↦ h <| by
      simpa [Skipped, hlast] using hall
    rw [if_neg hall, leaf, hlast]
    rfl

theorem enclosing_append_leaf {key : String} (h : ¬Skipped key) :
    enclosing key ++ [leaf key] = segments key := by
  have hne : segments key ≠ [] := fun hnil ↦ h (by simp [Skipped, hnil])
  rw [enclosing, leaf, List.getLast?_eq_some_getLast hne]
  exact List.dropLast_concat_getLast hne

theorem isSegment_of_mem_segments {key name : String} (h : name ∈ segments key) : IsSegment name :=
  ⟨(Text.of_mem_pieces h).1, (Text.of_mem_pieces h).2.1⟩

theorem isSegment_of_mem_enclosing {key name : String} (h : name ∈ enclosing key) :
    IsSegment name :=
  isSegment_of_mem_segments ((List.dropLast_prefix _).subset h)

end Key

theorem Entry.of_make_eq_ok {path key identifier : String} {arguments : List ArgumentKind}
    {entry : Entry} (h : Entry.make path key identifier arguments = .ok entry) :
    entry.key = key ∧ entry.identifier = identifier ∧ entry.arguments = arguments := by
  simp only [Entry.make] at h
  split at h
  · obtain rfl := Except.ok.inj h
    exact ⟨rfl, rfl, rfl⟩
  · simp at h

/-- A key and the arguments of its value, which are to be inserted. -/
structure Call where
  key : String
  arguments : List ArgumentKind
  deriving DecidableEq, Repr

namespace Call

/-- What comes of the entry of a key that is not skipped. -/
def make (call : Call) : Except ArgumentMismatch Entry :=
  Entry.make (Path.dotted (Key.segments call.key)) call.key (Key.leaf call.key) call.arguments

/-- The entry that a call leaves in a tree. -/
def entry? (call : Call) : Option Entry :=
  if Key.Skipped call.key then none else call.make.toOption

def outcome (call : Call) : Except ArgumentMismatch Unit :=
  if Key.Skipped call.key then .ok () else call.make.map fun _ ↦ ()

/-- The namespaces that a call asks for. -/
def Needs (call : Call) (path : Path) : Prop :=
  ¬Key.Skipped call.key ∧ path ≠ [] ∧ path <+: Key.enclosing call.key

theorem make_eq_ok {call : Call} {entry : Entry} (h : call.entry? = some entry) :
    call.make = .ok entry := by
  unfold entry? at h
  split at h
  · simp at h
  · cases hmake : call.make with
    | error mismatch => simp [hmake, Except.toOption] at h
    | ok made =>
      rw [hmake] at h
      exact congrArg Except.ok (Option.some.inj h)

theorem of_entry?_eq_some {call : Call} {entry : Entry} (h : call.entry? = some entry) :
    entry.key = call.key ∧ entry.identifier = Key.leaf call.key ∧
      entry.arguments = call.arguments :=
  Entry.of_make_eq_ok (make_eq_ok h)

end Call

namespace NamespaceTree

variable {tree : NamespaceTree}

theorem coherent_grow (coherent : tree.Coherent) (key : String) :
    (tree.grow (Key.enclosing key)).tree.Coherent :=
  (Cursor.foldl_enter (.atTop tree) coherent fun _ ↦ Key.isSegment_of_mem_enclosing).1

theorem path_grow (coherent : tree.Coherent) (key : String) :
    (tree.grow (Key.enclosing key)).path = Key.enclosing key :=
  (Cursor.foldl_enter (.atTop tree) coherent fun _ ↦ Key.isSegment_of_mem_enclosing).2.2.1

theorem insert_of_skipped {call : Call} (h : Key.Skipped call.key) :
    tree.insert call.key call.arguments = (tree, .ok ()) := by
  obtain ⟨reason, hreason⟩ := Key.place_of_skipped h
  rw [insert, hreason]

theorem insert_of_not_skipped (coherent : tree.Coherent) {call : Call}
    (h : ¬Key.Skipped call.key) :
    tree.insert call.key call.arguments =
      match call.make with
      | .error mismatch => ((tree.grow (Key.enclosing call.key)).tree, .error mismatch)
      | .ok entry => ((tree.grow (Key.enclosing call.key)).declare entry, .ok ()) := by
  have hlocation :
      (tree.grow (Key.enclosing call.key)).path ++ [Key.leaf call.key] = Key.segments call.key := by
    rw [path_grow coherent, Key.enclosing_append_leaf h]
  rw [insert, Key.place_of_not_skipped h]
  cases hmake : call.make with
  | error mismatch =>
    rw [Call.make] at hmake
    simp only [hlocation, hmake]
  | ok entry =>
    rw [Call.make] at hmake
    simp only [hlocation, hmake]

theorem insert_outcome (coherent : tree.Coherent) (call : Call) :
    (tree.insert call.key call.arguments).2 = call.outcome := by
  unfold Call.outcome
  split
  · next h => rw [insert_of_skipped h]
  · next h =>
    rw [insert_of_not_skipped coherent h]
    cases call.make <;> rfl

theorem coherent_insert (coherent : tree.Coherent) (call : Call) :
    (tree.insert call.key call.arguments).1.Coherent := by
  by_cases h : Key.Skipped call.key
  · rw [insert_of_skipped h]
    exact coherent
  · rw [insert_of_not_skipped coherent h]
    cases call.make with
    | error mismatch => exact coherent_grow coherent call.key
    | ok entry => exact Cursor.coherent_declare (coherent_grow coherent call.key) entry

theorem mem_namespaces_insert (coherent : tree.Coherent) (call : Call) (path : Path) :
    path ∈ (tree.insert call.key call.arguments).1.namespaces ↔
      path ∈ tree.namespaces ∨ call.Needs path := by
  by_cases h : Key.Skipped call.key
  · simp [insert_of_skipped h, Call.Needs, h]
  · have hgrow : path ∈ (tree.grow (Key.enclosing call.key)).tree.namespaces ↔
        path ∈ tree.namespaces ∨ call.Needs path := by
      rw [grow, Cursor.mem_namespaces_foldl_enter coherent
        fun _ ↦ Key.isSegment_of_mem_enclosing]
      simp [Call.Needs, h, Cursor.atTop, Cursor.path, sitePath]
    rw [insert_of_not_skipped coherent h]
    cases call.make with
    | error mismatch => exact hgrow
    | ok entry => rwa [Cursor.namespaces_declare]

theorem entriesAt_insert (coherent : tree.Coherent) (call : Call) (path : Path) :
    (tree.insert call.key call.arguments).1.entriesAt path =
      tree.entriesAt path ++
        if path = Key.enclosing call.key then call.entry?.toList else [] := by
  by_cases h : Key.Skipped call.key
  · simp [insert_of_skipped h, Call.entry?, h]
  · have hgrow : (tree.grow (Key.enclosing call.key)).tree.entriesAt path = tree.entriesAt path :=
      (Cursor.foldl_enter (.atTop tree) coherent fun _ ↦ Key.isSegment_of_mem_enclosing).2.2.2 path
    rw [insert_of_not_skipped coherent h, Call.entry?, if_neg h]
    cases call.make with
    | error mismatch => simp [hgrow, Except.toOption]
    | ok entry =>
      simp [Cursor.entriesAt_declare (coherent_grow coherent call.key), hgrow,
        path_grow coherent, Except.toOption]

theorem entries_insert (coherent : tree.Coherent) (call : Call) :
    (tree.insert call.key call.arguments).1.entries.Perm (tree.entries ++ call.entry?.toList) := by
  by_cases h : Key.Skipped call.key
  · simp [insert_of_skipped h, Call.entry?, h]
  · have hgrow : (tree.grow (Key.enclosing call.key)).tree.entries = tree.entries :=
      Cursor.entries_foldl_enter (.atTop tree) _
    rw [insert_of_not_skipped coherent h, Call.entry?, if_neg h, ← hgrow]
    cases call.make with
    | error mismatch => simp [Except.toOption]
    | ok entry => exact Cursor.entries_declare _ entry

end NamespaceTree

end LocalizedAccessors
