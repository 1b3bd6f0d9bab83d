import LocalizedAccessors.Proofs.Tree.Trie

/-!
# Addresses of namespaces

Where a namespace stands is told by its number, by its recorded parent, by the list that it is in
and by its dotted path. After any calls whatever the four agree: each determines the others, and a
dotted path is looked up by undoing how it is put together. Every step upwards makes the number
smaller, so the way up ends.
-/

namespace LocalizedAccessors

/-- Putting the fields of a text together gives the text back. -/
theorem Path.dotted_fields (text : String) : Path.dotted (Text.fields '.' text) = text := by
  have hdot : ".".toList = ['.'] := rfl
  have hfields : (Text.fields '.' text).map String.toList = text.toList.splitOn '.' := by
    simp [Text.fields, Function.comp_def]
  apply String.toList_injective
  rw [Path.dotted, String.toList_intercalate, hdot, hfields, List.intercalate_splitOn]

namespace NamespaceTree

variable {tree : NamespaceTree}

/-- The site that is reached from a site in some steps upwards. There is nothing above the top
level. -/
def climb (tree : NamespaceTree) : Nat → Site → Site
  | 0, site => site
  | steps + 1, site => tree.climb steps (site.bind tree.parentOf)

@[simp] theorem climb_none (tree : NamespaceTree) (steps : Nat) :
    tree.climb steps none = none := by
  induction steps with
  | zero => rfl
  | succ steps ih => exact ih

/-- The way up ends at the top level, as every step leads to a smaller number. -/
theorem climb_eq_none {id steps : Nat} (h : id < steps) : tree.climb steps (some id) = none := by
  induction steps generalizing id with
  | zero => exact absurd h (Nat.not_lt_zero id)
  | succ steps ih =>
    rw [climb, Option.bind_some]
    cases hparent : tree.parentOf id with
    | none => exact climb_none tree steps
    | some parent =>
      have hlt := tree.ordered.parent_lt hparent
      exact ih (hlt.trans_le (Nat.le_of_lt_succ h))

/-- The lists of children have no number twice and share none. -/
theorem nodup_flatMap_childrenOf (coherent : tree.Coherent) :
    (tree.sites.flatMap tree.childrenOf).Nodup := by
  rw [List.nodup_flatMap]
  refine ⟨fun site _ ↦ coherent.nodup_childrenOf site, ?_⟩
  apply tree.nodup_sites.imp
  intro first second hne id hfirst hsecond
  have hparent := (coherent.mem_childrenOf.1 hfirst).2
  exact hne (hparent.symm.trans (coherent.mem_childrenOf.1 hsecond).2)

/-- All lists of children together are the numbers of the namespaces. -/
theorem flatMap_childrenOf_perm (coherent : tree.Coherent) :
    (tree.sites.flatMap tree.childrenOf).Perm (List.range tree.nodeCount) := by
  rw [List.perm_ext_iff_of_nodup (nodup_flatMap_childrenOf coherent) List.nodup_range]
  intro id
  simp only [List.mem_flatMap, mem_sites, coherent.mem_childrenOf, List.mem_range]
  constructor
  · rintro ⟨-, -, hid, -⟩
    exact hid
  · intro hid
    exact ⟨tree.parentOf id, has_parentOf hid, hid, rfl⟩

theorem nodup_map_identifierOf (coherent : tree.Coherent) (site : Site) :
    ((tree.childrenOf site).map tree.identifierOf).Nodup := by
  refine (coherent.nodup_childrenOf site).map_on fun i hi j hj hidentifier ↦ ?_
  obtain ⟨hilt, hiparent⟩ := coherent.mem_childrenOf.1 hi
  obtain ⟨hjlt, hjparent⟩ := coherent.mem_childrenOf.1 hj
  exact coherent.siblings hilt hjlt (hiparent.trans hjparent.symm) hidentifier

/-- A dotted text is the path of a namespace if its fields are. -/
theorem dotted_path_eq_iff (coherent : tree.Coherent) {id : Nat} (h : id < tree.nodeCount)
    {dotted : String} :
    Path.dotted (tree.path id) = dotted ↔ tree.path id = Text.fields '.' dotted := by
  constructor
  · rintro rfl
    exact (Path.fields_dotted (path_ne_nil tree id) fun _ ↦ isSegment_of_mem_path coherent h).symm
  · intro hpath
    rw [hpath, Path.dotted_fields]

theorem find?_eq_some_iff (coherent : tree.Coherent) {dotted : String} {id : Nat} :
    tree.find? dotted = some id ↔ id < tree.nodeCount ∧ Path.dotted (tree.path id) = dotted := by
  rw [find?, Option.join_eq_some_iff, locate?_eq_some coherent, Arena.has_some]
  exact and_congr_right fun hid ↦ (dotted_path_eq_iff coherent hid).symm

/-- The number, the parent, the lists of children and the dotted path of a namespace agree. -/
structure Addressed (tree : NamespaceTree) : Prop where
  parent_lt : ∀ id parent, tree.parentOf id = some parent → parent < id
  climb_eq_none : ∀ id < tree.nodeCount, tree.climb (id + 1) (some id) = none
  listed_once : (tree.sites.flatMap tree.childrenOf).Perm (List.range tree.nodeCount)
  mem_childrenOf : ∀ id < tree.nodeCount, ∀ site,
    id ∈ tree.childrenOf site ↔ tree.parentOf id = site
  siblings_distinct : ∀ site, ((tree.childrenOf site).map tree.identifierOf).Nodup
  identifier_ne_empty : ∀ id < tree.nodeCount, tree.identifierOf id ≠ ""
  dot_notMem_identifier : ∀ id < tree.nodeCount, '.' ∉ (tree.identifierOf id).toList
  find?_eq_some : ∀ dotted id, tree.find? dotted = some id ↔
    id < tree.nodeCount ∧ Path.dotted (tree.path id) = dotted

theorem addressed_run (calls : List Call) : (empty.run calls).1.Addressed where
  parent_lt _ _ hparent := (empty.run calls).1.ordered.parent_lt hparent
  climb_eq_none id _ := climb_eq_none (Nat.lt_succ_self id)
  listed_once := flatMap_childrenOf_perm (coherent_run_empty calls)
  mem_childrenOf _ hid _ :=
    (coherent_run_empty calls).mem_childrenOf.trans (and_iff_right hid)
  siblings_distinct site := nodup_map_identifierOf (coherent_run_empty calls) site
  identifier_ne_empty _ hid := ((coherent_run_empty calls).isSegment hid).1
  dot_notMem_identifier _ hid := ((coherent_run_empty calls).isSegment hid).2
  find?_eq_some _ _ := find?_eq_some_iff (coherent_run_empty calls)

end NamespaceTree

end LocalizedAccessors
