import LocalizedAccessors.Proofs.Tree.Insertion
import Mathlib.Data.List.Dedup
import Mathlib.Data.List.Infix

/-!
# The tree as a trie

After any calls whatever, the namespaces of the tree are the beginnings of the keys and every entry
is where its key says. What a run adds to the tree is told first in general, for a tree that need
not be empty.
-/

namespace LocalizedAccessors

namespace NamespaceTree

/-- The tree after some calls, whether they succeed or not, and each call with its outcome. -/
def run (tree : NamespaceTree) :
    List Call → NamespaceTree × List (Call × Except ArgumentMismatch Unit)
  | [] => (tree, [])
  | call :: rest =>
    let (grown, outcome) := tree.insert call.key call.arguments
    let (after, history) := grown.run rest
    (after, (call, outcome) :: history)

variable {tree : NamespaceTree}

theorem coherent_run (coherent : tree.Coherent) (calls : List Call) :
    (tree.run calls).1.Coherent := by
  induction calls generalizing tree with
  | nil => exact coherent
  | cons call rest ih => exact ih (coherent_insert coherent call)

/-- Whether a call succeeds does not depend on the calls before it. -/
theorem history_run (coherent : tree.Coherent) (calls : List Call) :
    (tree.run calls).2 = calls.map fun call ↦ (call, call.outcome) := by
  induction calls generalizing tree with
  | nil => rfl
  | cons call rest ih =>
    rw [run, List.map_cons, ← insert_outcome coherent call, ← ih (coherent_insert coherent call)]

theorem mem_namespaces_run (coherent : tree.Coherent) (calls : List Call) (path : Path) :
    path ∈ (tree.run calls).1.namespaces ↔
      path ∈ tree.namespaces ∨ ∃ call ∈ calls, call.Needs path := by
  induction calls generalizing tree with
  | nil => simp [run]
  | cons call rest ih =>
    rw [run, ih (coherent_insert coherent call), mem_namespaces_insert coherent]
    simp [or_assoc]

theorem entriesAt_run (coherent : tree.Coherent) (calls : List Call) (path : Path) :
    (tree.run calls).1.entriesAt path =
      tree.entriesAt path ++
        (calls.filter fun call ↦ Key.enclosing call.key = path).filterMap Call.entry? := by
  induction calls generalizing tree with
  | nil => simp [run]
  | cons call rest ih =>
    rw [run, ih (coherent_insert coherent call), entriesAt_insert coherent, List.append_assoc]
    congr 1
    by_cases heq : Key.enclosing call.key = path
    · cases hentry : call.entry? <;> simp [heq, hentry]
    · simp [heq, Ne.symm heq]

theorem entries_run (coherent : tree.Coherent) (calls : List Call) :
    (tree.run calls).1.entries.Perm (tree.entries ++ calls.filterMap Call.entry?) := by
  induction calls generalizing tree with
  | nil => simp [run]
  | cons call rest ih =>
    calc
      (tree.run (call :: rest)).1.entries.Perm
          ((tree.insert call.key call.arguments).1.entries ++ rest.filterMap Call.entry?) :=
        ih (coherent_insert coherent call)
      List.Perm _ (tree.entries ++ call.entry?.toList ++ rest.filterMap Call.entry?) :=
        (entries_insert coherent call).append_right _
      _ = tree.entries ++ (call :: rest).filterMap Call.entry? := by
        cases hentry : call.entry? <;> simp [hentry]

/-- The calls that succeeded with a key that is not skipped. -/
def accepted (history : List (Call × Except ArgumentMismatch Unit)) : List Call :=
  (history.filter fun (call, outcome) ↦ outcome.isOk ∧ ¬Key.Skipped call.key).map Prod.fst

theorem accepted_run (coherent : tree.Coherent) (calls : List Call) :
    accepted (tree.run calls).2 = calls.filter fun call ↦ call.entry?.isSome := by
  rw [accepted, history_run coherent, List.filter_map, List.map_map]
  apply (List.map_id _).trans
  apply List.filter_congr
  intro call _
  by_cases h : Key.Skipped call.key
  · simp [h, Call.entry?]
  · cases hmake : call.make <;>
      simp [h, hmake, Call.entry?, Call.outcome, Except.toOption, Except.map, Except.isOk,
        Except.toBool]

theorem mem_inits_tail {path front : Path} :
    front ∈ path.inits.tail ↔ front ≠ [] ∧ front <+: path := by
  cases path with
  | nil => simp
  | cons first rest =>
    simp only [List.inits_cons, List.tail_cons, List.mem_map, List.mem_inits]
    constructor
    · rintro ⟨front, hfront, rfl⟩
      exact ⟨by simp, by simpa using hfront⟩
    · rintro ⟨hne, hbegins⟩
      obtain ⟨head, front, rfl⟩ := List.exists_cons_of_ne_nil hne
      obtain ⟨rfl, hfront⟩ := List.cons_prefix_cons.1 hbegins
      exact ⟨front, hfront, rfl⟩

/-- The namespaces around a key, the outermost first. -/
def ancestry (key : String) : List Path := (Key.enclosing key).inits.tail

theorem mem_ancestry {key : String} {path : Path} :
    path ∈ ancestry key ↔ path ≠ [] ∧ path <+: Key.enclosing key := mem_inits_tail

/-- The tree that some calls ought to leave: its namespaces are the beginnings of the keys that are
not skipped, and its entries are those of the accepted calls, each in the namespace of its key. -/
structure IsTrieOf (tree : NamespaceTree) (calls accepted : List Call) : Prop where
  mem_paths : ∀ path, (∃ id < tree.nodeCount, tree.path id = path) ↔
    path ≠ [] ∧ ∃ call ∈ calls, ¬Key.Skipped call.key ∧ path <+: Key.enclosing call.key
  dotted_injective : ∀ i < tree.nodeCount, ∀ j < tree.nodeCount,
    Path.dotted (tree.path i) = Path.dotted (tree.path j) → i = j
  entries_eq : ∀ site, tree.Has site →
    (tree.entriesOf site).map (fun entry ↦ (entry.key, entry.identifier, entry.arguments)) =
      (accepted.filter fun call ↦ Key.enclosing call.key = tree.sitePath site).map
        fun call ↦ (call.key, Key.leaf call.key, call.arguments)
  entryCount_eq : tree.entryCount = accepted.length
  nodeCount_eq : tree.nodeCount =
    ((calls.filter fun call ↦ ¬Key.Skipped call.key).flatMap
      fun call ↦ ancestry call.key).dedup.length

theorem mem_namespaces_run_empty (calls : List Call) (path : Path) :
    path ∈ (empty.run calls).1.namespaces ↔ ∃ call ∈ calls, call.Needs path := by
  rw [mem_namespaces_run coherent_empty]
  simp [namespaces, nodeCount, empty]

theorem coherent_run_empty (calls : List Call) : (empty.run calls).1.Coherent :=
  coherent_run coherent_empty calls

/-- The entries of calls repeat what the calls say. -/
theorem map_filterMap_calls (calls : List Call) :
    (calls.filterMap Call.entry?).map (fun entry ↦ (entry.key, entry.identifier, entry.arguments)) =
      (calls.filter fun call ↦ call.entry?.isSome).map
        fun call ↦ (call.key, Key.leaf call.key, call.arguments) := by
  induction calls with
  | nil => rfl
  | cons call rest ih =>
    cases hentry : call.entry? with
    | none => simp [hentry, ih]
    | some entry =>
      obtain ⟨hkey, hidentifier, harguments⟩ := Call.of_entry?_eq_some hentry
      simp [hentry, ih, hkey, hidentifier, harguments]

theorem isTrieOf_run (calls : List Call) :
    (empty.run calls).1.IsTrieOf calls (accepted (empty.run calls).2) where
  mem_paths path := by
    rw [← mem_namespaces, mem_namespaces_run_empty]
    simp only [Call.Needs]
    constructor
    · rintro ⟨call, hcall, hnamed, hne, hbegins⟩
      exact ⟨hne, call, hcall, hnamed, hbegins⟩
    · rintro ⟨hne, call, hcall, hnamed, hbegins⟩
      exact ⟨call, hcall, hnamed, hne, hbegins⟩
  dotted_injective i hi j hj h := by
    have coherent := coherent_run_empty calls
    have hcut := congrArg (Text.fields '.') h
    rw [Path.fields_dotted (path_ne_nil _ i) fun _ ↦ isSegment_of_mem_path coherent hi,
      Path.fields_dotted (path_ne_nil _ j) fun _ ↦ isSegment_of_mem_path coherent hj] at hcut
    exact path_injective coherent hi hj hcut
  entries_eq site here := by
    rw [← entriesAt_sitePath (coherent_run_empty calls) here, entriesAt_run coherent_empty,
      accepted_run coherent_empty, List.filter_comm, ← map_filterMap_calls, entriesAt_empty]
    rfl
  entryCount_eq := by
    have hlength := congrArg List.length (map_filterMap_calls calls)
    simp only [List.length_map] at hlength
    rw [accepted_run coherent_empty, entryCount, (entries_run coherent_empty calls).length_eq,
      List.length_append, hlength]
    simp [entries, empty]
  nodeCount_eq := by
    have hperm : (empty.run calls).1.namespaces.Perm
        ((calls.filter fun call ↦ ¬Key.Skipped call.key).flatMap
          fun call ↦ ancestry call.key).dedup := by
      apply (List.perm_ext_iff_of_nodup (nodup_namespaces (coherent_run_empty calls))
        (List.nodup_dedup _)).2
      intro path
      rw [mem_namespaces_run_empty, List.mem_dedup, List.mem_flatMap]
      simp [mem_ancestry, Call.Needs, and_assoc]
    rw [← length_namespaces, hperm.length_eq]

end NamespaceTree

end LocalizedAccessors
