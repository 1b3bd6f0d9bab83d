import LocalizedAccessors.Accessor.Source
import LocalizedAccessors.Proofs.Tree.Path

/-!
# The descent through a tree

The sites of a tree in the order in which their structures are opened: a site comes before
everything below it, and all of one namespace comes before the next one at the same site. Every site
is reached once.
-/

namespace LocalizedAccessors

namespace NamespaceTree

/-- A site and the sites below it, depth first. -/
def descent (tree : NamespaceTree) (site : Site) : List Site :=
  site :: (tree.sortedChildren site).attach.flatMap fun ⟨id, _⟩ ↦ tree.descent (some id)
termination_by tree.room site
decreasing_by exact room_lt (List.mem_mergeSort.1 ‹_›)

theorem descent_eq (tree : NamespaceTree) (site : Site) :
    tree.descent site =
      site :: (tree.sortedChildren site).flatMap fun id ↦ tree.descent (some id) := by
  rw [descent]
  congr 1
  simp only [List.flatMap_def, List.map_attach_eq_pmap, List.pmap_eq_map]

variable {tree : NamespaceTree} {site : Site}

theorem mem_sortedChildren (coherent : tree.Coherent) {id : Nat} :
    id ∈ tree.sortedChildren site ↔ id < tree.nodeCount ∧ tree.parentOf id = site := by
  rw [sortedChildren, List.mem_mergeSort, coherent.mem_childrenOf]
  rfl

theorem nodup_sortedChildren (coherent : tree.Coherent) (site : Site) :
    (tree.sortedChildren site).Nodup :=
  (List.mergeSort_perm ..).nodup_iff.2 (coherent.nodup_childrenOf site)

theorem sitePath_child {id : Nat} (h : tree.parentOf id = site) :
    tree.sitePath (some id) = tree.sitePath site ++ [tree.identifierOf id] := by
  rw [sitePath, path_eq, h]

/-- Something below a site is below one of the namespaces at the site. -/
theorem exists_child_of_isPrefix (coherent : tree.Coherent) (here : tree.Has site) {other : Site}
    (there : tree.Has other) (h : tree.sitePath site <+: tree.sitePath other) (hne : other ≠ site) :
    ∃ id, id < tree.nodeCount ∧ tree.parentOf id = site ∧
      tree.sitePath (some id) <+: tree.sitePath other := by
  cases other with
  | none =>
    have hpath : tree.sitePath site = tree.sitePath none := List.prefix_nil.1 h
    exact absurd (sitePath_injective coherent here there hpath).symm hne
  | some id =>
    induction id using Nat.strongRecOn with
    | ind id ih =>
      have hid := Arena.has_some.1 there
      by_cases hparent : tree.parentOf id = site
      · exact ⟨id, hid, hparent, List.prefix_rfl⟩
      rw [sitePath_child rfl] at h ⊢
      rcases List.prefix_concat_iff.1 h with heq | habove
      · rw [← sitePath_child rfl] at heq
        exact absurd (sitePath_injective coherent here there heq).symm hne
      · cases hp : tree.parentOf id with
        | none =>
          rw [hp] at habove
          have hpath : tree.sitePath site = tree.sitePath none := List.prefix_nil.1 habove
          have hsite := sitePath_injective coherent here Arena.has_none hpath
          exact absurd (hp.trans hsite.symm) hparent
        | some parent =>
          have hlt := tree.ordered.parent_lt hp
          rw [hp] at habove hparent
          obtain ⟨child, hchild, hat, hbelow⟩ :=
            ih parent hlt (Arena.has_some.2 (hlt.trans hid)) habove hparent
          exact ⟨child, hchild, hat, hbelow.trans (List.prefix_append ..)⟩

theorem mem_descent (coherent : tree.Coherent) (here : tree.Has site) {other : Site} :
    other ∈ tree.descent site ↔ tree.Has other ∧ tree.sitePath site <+: tree.sitePath other := by
  induction hroom : tree.room site using Nat.strongRecOn generalizing site with
  | ind room ih =>
    subst hroom
    have hchild {id : Nat} (hid : id < tree.nodeCount) (hparent : tree.parentOf id = site) :
        other ∈ tree.descent (some id) ↔
          tree.Has other ∧ tree.sitePath (some id) <+: tree.sitePath other :=
      ih _ (room_lt (coherent.mem_childrenOf.2 ⟨hid, hparent⟩)) (Arena.has_some.2 hid) rfl
    rw [descent_eq, List.mem_cons, List.mem_flatMap]
    constructor
    · rintro (rfl | ⟨id, hid, hother⟩)
      · exact ⟨here, List.prefix_rfl⟩
      · obtain ⟨hid, hparent⟩ := (mem_sortedChildren coherent).1 hid
        obtain ⟨there, hbelow⟩ := (hchild hid hparent).1 hother
        rw [sitePath_child hparent] at hbelow
        exact ⟨there, (List.prefix_append ..).trans hbelow⟩
    · rintro ⟨there, hbelow⟩
      by_cases hne : other = site
      · exact .inl hne
      · obtain ⟨id, hid, hparent, hunder⟩ :=
          exists_child_of_isPrefix coherent here there hbelow hne
        exact .inr ⟨id, (mem_sortedChildren coherent).2 ⟨hid, hparent⟩,
          (hchild hid hparent).2 ⟨there, hunder⟩⟩

theorem nodup_descent (coherent : tree.Coherent) (here : tree.Has site) :
    (tree.descent site).Nodup := by
  induction hroom : tree.room site using Nat.strongRecOn generalizing site with
  | ind room ih =>
    subst hroom
    rw [descent_eq, List.nodup_cons, List.nodup_flatMap]
    refine ⟨?_, ?_, ?_⟩
    · intro hsite
      obtain ⟨id, hid, hbelow⟩ := List.mem_flatMap.1 hsite
      obtain ⟨hid, hparent⟩ := (mem_sortedChildren coherent).1 hid
      have hlonger := ((mem_descent coherent (Arena.has_some.2 hid)).1 hbelow).2.length_le
      rw [sitePath_child hparent, List.length_append, List.length_singleton] at hlonger
      omega
    · intro id hid
      obtain ⟨hid, hparent⟩ := (mem_sortedChildren coherent).1 hid
      exact ih _ (room_lt (coherent.mem_childrenOf.2 ⟨hid, hparent⟩)) (Arena.has_some.2 hid) rfl
    · apply (nodup_sortedChildren coherent site).imp_of_mem
      intro i j hi hj hne
      obtain ⟨hi, hiparent⟩ := (mem_sortedChildren coherent).1 hi
      obtain ⟨hj, hjparent⟩ := (mem_sortedChildren coherent).1 hj
      intro other hbelow hbelow'
      have hunder := ((mem_descent coherent (Arena.has_some.2 hi)).1 hbelow).2
      have hunder' := ((mem_descent coherent (Arena.has_some.2 hj)).1 hbelow').2
      have hlength : (tree.path i).length = (tree.path j).length := by
        simp [path_eq, hiparent, hjparent]
      have hbegins : tree.path i <+: tree.path j :=
        List.prefix_of_prefix_length_le hunder hunder' (Nat.le_of_eq hlength)
      exact hne (path_injective coherent hi hj (hbegins.eq_of_length hlength))

/-- The descent from the top level reaches every site once. -/
theorem descent_perm_sites (coherent : tree.Coherent) : (tree.descent none).Perm tree.sites := by
  apply (List.perm_ext_iff_of_nodup (nodup_descent coherent Arena.has_none) (nodup_sites tree)).2
  intro site
  rw [mem_descent coherent Arena.has_none, mem_sites]
  exact and_iff_left List.nil_prefix

end NamespaceTree

end LocalizedAccessors
