import LocalizedAccessors.Proofs.Tree.Coherence
import Mathlib.Data.List.Nodup

/-!
# Paths of namespaces

In a coherent tree the path that is read off upwards and the walk that looks a path up downwards
undo each other. So a tree can be spoken of by paths alone: by the paths of its namespaces and by
the entries at each path.
-/

namespace LocalizedAccessors

/-- Cutting a dotted path at its dots gives the path back. -/
theorem Path.fields_dotted {path : Path} (hne : path ≠ [])
    (h : ∀ name ∈ path, Key.IsSegment name) : Text.fields '.' path.dotted = path := by
  have hdot : ".".toList = ['.'] := rfl
  rw [Text.fields, Path.dotted, String.toList_intercalate, hdot, List.splitOn_intercalate]
  · simp
  · intro cs hcs
    obtain ⟨name, hname, rfl⟩ := List.mem_map.1 hcs
    exact (h name hname).2
  · simpa using hne

theorem Arena.locate?_append (arena : Arena) (site : Site) (first rest : Path) :
    arena.locate? site (first ++ rest) =
      (arena.locate? site first).bind fun reached ↦ arena.locate? reached rest := by
  induction first generalizing site with
  | nil => rfl
  | cons identifier first ih =>
    simp only [List.cons_append, Arena.locate?]
    cases arena.child? site identifier with
    | none => rfl
    | some id => exact ih (some id)

namespace NamespaceTree

variable {tree after : NamespaceTree} {site : Site}

theorem coherent_empty : empty.Coherent := Arena.coherent_empty

theorem path_ne_nil (tree : NamespaceTree) (id : Nat) : tree.path id ≠ [] := by
  simp [path_eq tree id]

theorem has_parentOf {id : Nat} (h : id < tree.nodeCount) : tree.Has (tree.parentOf id) :=
  fun _ hparent ↦ (tree.ordered.parent_lt hparent).trans h

theorem path_of_grows (grows : tree.Grows after.toArena) {id : Nat} (h : id < tree.nodeCount) :
    after.path id = tree.path id := by
  induction id using Nat.strongRecOn with
  | ind id ih =>
    rw [path_eq after, path_eq tree, grows.parentOf_eq h, grows.identifierOf_eq h]
    cases hparent : tree.parentOf id with
    | none => rfl
    | some parent =>
      have hlt := tree.ordered.parent_lt hparent
      simp only [sitePath, ih parent hlt (hlt.trans h)]

theorem sitePath_of_grows (grows : tree.Grows after.toArena) (here : tree.Has site) :
    after.sitePath site = tree.sitePath site := by
  cases site with
  | none => rfl
  | some id => exact path_of_grows grows (Arena.has_some.1 here)

theorem path_injective (coherent : tree.Coherent) {i j : Nat} (hi : i < tree.nodeCount)
    (hj : j < tree.nodeCount) (h : tree.path i = tree.path j) : i = j := by
  induction i using Nat.strongRecOn generalizing j with
  | ind i ih =>
    rw [path_eq tree i, path_eq tree j] at h
    obtain ⟨hparents, hidentifiers⟩ := List.append_inj' h rfl
    apply coherent.siblings hi hj _ (List.singleton_inj.1 hidentifiers)
    cases hp : tree.parentOf i with
    | none =>
      cases hq : tree.parentOf j with
      | none => rfl
      | some q => simp [hp, hq, sitePath, path_ne_nil tree q] at hparents
    | some p =>
      cases hq : tree.parentOf j with
      | none => simp [hp, hq, sitePath, path_ne_nil tree p] at hparents
      | some q =>
        have hpi := tree.ordered.parent_lt hp
        have hqj := tree.ordered.parent_lt hq
        rw [hp, hq] at hparents
        rw [ih p hpi (hpi.trans hi) (hqj.trans hj) hparents]

theorem sitePath_injective (coherent : tree.Coherent) {first second : Site}
    (hfirst : tree.Has first) (hsecond : tree.Has second)
    (h : tree.sitePath first = tree.sitePath second) : first = second := by
  cases first with
  | none =>
    cases second with
    | none => rfl
    | some id => exact absurd h.symm (path_ne_nil tree id)
  | some id =>
    cases second with
    | none => exact absurd h (path_ne_nil tree id)
    | some other =>
      exact congrArg some <|
        path_injective coherent (Arena.has_some.1 hfirst) (Arena.has_some.1 hsecond) h

/-- Following a path down from a site makes the path of the site longer by it. -/
theorem sitePath_of_locate? (coherent : tree.Coherent) {reached : Site} {path : Path}
    (here : tree.Has site) (h : tree.locate? site path = some reached) :
    tree.Has reached ∧ tree.sitePath reached = tree.sitePath site ++ path := by
  induction path generalizing site with
  | nil =>
    obtain rfl : site = reached := Option.some.inj h
    exact ⟨here, (List.append_nil _).symm⟩
  | cons identifier rest ih =>
    obtain ⟨id, hid, hrest⟩ := Option.bind_eq_some_iff.1 h
    obtain ⟨hmem, hidentifier⟩ := coherent.child?_eq_some.1 hid
    obtain ⟨hlt, hparent⟩ := coherent.mem_childrenOf.1 hmem
    obtain ⟨hreached, hpath⟩ := ih (Arena.has_some.2 hlt) hrest
    have hid : tree.sitePath (some id) = tree.sitePath site ++ [identifier] := by
      rw [sitePath, path_eq, hparent, hidentifier]
    have hwhole : tree.sitePath reached = tree.sitePath site ++ identifier :: rest := by
      rw [hpath, hid, List.append_assoc, List.singleton_append]
    exact ⟨hreached, hwhole⟩

theorem locate?_path (coherent : tree.Coherent) {id : Nat} (h : id < tree.nodeCount) :
    tree.locate? none (tree.path id) = some (some id) := by
  induction id using Nat.strongRecOn with
  | ind id ih =>
    have hparent : tree.locate? none (tree.sitePath (tree.parentOf id)) =
        some (tree.parentOf id) := by
      cases hp : tree.parentOf id with
      | none => rfl
      | some parent =>
        have hlt := tree.ordered.parent_lt hp
        exact ih parent hlt (hlt.trans h)
    have hchild : tree.child? (tree.parentOf id) (tree.identifierOf id) = some id :=
      coherent.child?_eq_some.2 ⟨coherent.mem_childrenOf.2 ⟨h, rfl⟩, rfl⟩
    rw [path_eq, Arena.locate?_append, hparent]
    simp [Arena.locate?, hchild]

theorem locate?_sitePath (coherent : tree.Coherent) (here : tree.Has site) :
    tree.locate? none (tree.sitePath site) = some site := by
  cases site with
  | none => rfl
  | some id => exact locate?_path coherent (Arena.has_some.1 here)

/-- A path leads to the site that it is the path of. -/
theorem locate?_eq_some (coherent : tree.Coherent) {path : Path} :
    tree.locate? none path = some site ↔ tree.Has site ∧ tree.sitePath site = path := by
  constructor
  · intro h
    simpa [sitePath] using sitePath_of_locate? coherent Arena.has_none h
  · rintro ⟨here, rfl⟩
    exact locate?_sitePath coherent here

theorem isSegment_of_mem_path (coherent : tree.Coherent) {id : Nat} (h : id < tree.nodeCount)
    {name : String} (hname : name ∈ tree.path id) : Key.IsSegment name := by
  induction id using Nat.strongRecOn with
  | ind id ih =>
    rw [path_eq] at hname
    rcases List.mem_append.1 hname with habove | hself
    · cases hparent : tree.parentOf id with
      | none => simp [hparent, sitePath] at habove
      | some parent =>
        have hlt := tree.ordered.parent_lt hparent
        rw [hparent] at habove
        exact ih parent hlt (hlt.trans h) habove
    · exact List.mem_singleton.1 hself ▸ coherent.isSegment h

/-! ## The tree seen through its paths -/

theorem mem_namespaces {path : Path} :
    path ∈ tree.namespaces ↔ ∃ id < tree.nodeCount, tree.path id = path := by
  simp [namespaces]

theorem nodup_namespaces (coherent : tree.Coherent) : tree.namespaces.Nodup :=
  List.Nodup.map_on (fun _ hi _ hj h ↦
    path_injective coherent (List.mem_range.1 hi) (List.mem_range.1 hj) h) List.nodup_range

@[simp] theorem length_namespaces (tree : NamespaceTree) :
    tree.namespaces.length = tree.nodeCount := by simp [namespaces]

theorem entriesAt_sitePath (coherent : tree.Coherent) (here : tree.Has site) :
    tree.entriesAt (tree.sitePath site) = tree.entriesOf site := by
  rw [entriesAt, locate?_sitePath coherent here]

theorem entriesAt_eq_nil (coherent : tree.Coherent) {path : Path}
    (h : ∀ site, tree.Has site → tree.sitePath site ≠ path) : tree.entriesAt path = [] := by
  unfold entriesAt
  split
  · next site hsite =>
    have hfound := (locate?_eq_some coherent).1 hsite
    exact absurd hfound.2 (h site hfound.1)
  · rfl

theorem entriesAt_empty (path : Path) : empty.entriesAt path = [] := by
  cases path <;> rfl

theorem mem_sites : site ∈ tree.sites ↔ tree.Has site := by
  cases site <;> simp [sites, nodeCount]

theorem nodup_sites (tree : NamespaceTree) : tree.sites.Nodup := by
  have hrange : ((List.range tree.nodeCount).map some).Nodup :=
    List.nodup_range.map fun _ _ ↦ Option.some.inj
  exact List.nodup_cons.2 ⟨by simp, hrange⟩

theorem entries_eq_flatMap_sites (tree : NamespaceTree) :
    tree.entries = tree.sites.flatMap tree.entriesOf := by
  have hnodes : tree.nodes.map (·.contents.entries) =
      (List.range tree.nodeCount).map fun id ↦ tree.entriesOf (some id) := by
    apply List.ext_getElem
    · simp [nodeCount]
    intro id hid _
    rw [List.length_map] at hid
    simp [Arena.entriesOf, Arena.contents, hid]
  rw [entries, List.flatMap_def, hnodes, sites, List.flatMap_cons, List.flatMap_map,
    List.flatMap_def]
  rfl

end NamespaceTree

end LocalizedAccessors
