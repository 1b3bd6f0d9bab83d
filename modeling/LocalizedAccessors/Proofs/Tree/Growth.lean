import LocalizedAccessors.Proofs.Tree.Path

/-!
# Growth of the tree

What one step of an insertion does to the tree as its paths show it. Entering a namespace adds at
most one path and no entry; declaring an entry adds this entry at one path and nothing else.
-/

namespace LocalizedAccessors.NamespaceTree

/-- Entries at paths are the same if they are the same at sites. -/
theorem entriesAt_of_grows {tree after : NamespaceTree} (coherent : tree.Coherent)
    (coherent' : after.Coherent) (grows : tree.Grows after.toArena)
    (h : ∀ site, after.entriesOf site = tree.entriesOf site) (path : Path) :
    after.entriesAt path = tree.entriesAt path := by
  by_cases hold : ∃ site, tree.Has site ∧ tree.sitePath site = path
  · obtain ⟨site, here, rfl⟩ := hold
    rw [entriesAt_sitePath coherent here, ← h site, ← sitePath_of_grows grows here,
      entriesAt_sitePath coherent' (grows.has here)]
  · push Not at hold
    rw [entriesAt_eq_nil coherent hold]
    by_cases hnew : ∃ site, after.Has site ∧ after.sitePath site = path
    · obtain ⟨site, here, rfl⟩ := hnew
      rw [entriesAt_sitePath coherent' here, h site]
      apply Arena.entriesOf_eq_nil
      intro here'
      exact hold site here' (sitePath_of_grows grows here').symm
    · push Not at hnew
      exact entriesAt_eq_nil coherent' hnew

namespace Cursor

variable {cursor : Cursor} {identifier : String}

theorem coherent_enter (coherent : cursor.tree.Coherent) (segment : Key.IsSegment identifier) :
    (cursor.enter identifier).tree.Coherent :=
  coherent.resolve cursor.here segment

theorem grows_enter (cursor : Cursor) (identifier : String) :
    cursor.tree.Grows (cursor.enter identifier).tree.toArena :=
  Arena.grows_resolve identifier cursor.here

theorem path_enter (coherent : cursor.tree.Coherent) (identifier : String) :
    (cursor.enter identifier).path = cursor.path ++ [identifier] := by
  let entered := (cursor.enter identifier).tree
  let id := (cursor.tree.resolve cursor.site identifier).2
  have hparent : entered.parentOf id = cursor.site := (coherent.resolved cursor.site identifier).1
  have hidentifier : entered.identifierOf id = identifier :=
    (coherent.resolved cursor.site identifier).2
  calc
    (cursor.enter identifier).path = entered.sitePath (entered.parentOf id) ++
        [entered.identifierOf id] := path_eq entered id
    _ = entered.sitePath cursor.site ++ [identifier] := by rw [hparent, hidentifier]
    _ = cursor.path ++ [identifier] := by
      rw [sitePath_of_grows (grows_enter cursor identifier) cursor.here, path]

theorem entriesAt_enter (coherent : cursor.tree.Coherent) (segment : Key.IsSegment identifier)
    (path : Path) : (cursor.enter identifier).tree.entriesAt path = cursor.tree.entriesAt path :=
  entriesAt_of_grows coherent (coherent_enter coherent segment) (grows_enter cursor identifier)
    (Arena.entriesOf_resolve identifier cursor.here) path

theorem child?_eq_none_iff (coherent : cursor.tree.Coherent) :
    cursor.tree.child? cursor.site identifier = none ↔
      cursor.path ++ [identifier] ∉ cursor.tree.namespaces := by
  rw [mem_namespaces, coherent.child?_eq_none]
  constructor
  · rintro h ⟨id, hid, hpath⟩
    rw [path_eq] at hpath
    obtain ⟨hsite, hidentifier⟩ := List.append_inj' hpath rfl
    have hparent := sitePath_injective coherent (has_parentOf hid) cursor.here hsite
    exact h id hid hparent (List.singleton_inj.1 hidentifier)
  · intro h id hid hparent hidentifier
    exact h ⟨id, hid, by rw [path_eq, hparent, hidentifier, path]⟩

theorem namespaces_enter (coherent : cursor.tree.Coherent) (identifier : String) :
    (cursor.enter identifier).tree.namespaces =
      if cursor.path ++ [identifier] ∈ cursor.tree.namespaces then cursor.tree.namespaces
      else cursor.tree.namespaces ++ [cursor.path ++ [identifier]] := by
  have hpath := path_enter coherent identifier
  have hold (id : Nat) (hid : id ∈ List.range cursor.tree.nodeCount) :
      (cursor.enter identifier).tree.path id = cursor.tree.path id :=
    path_of_grows (grows_enter cursor identifier) (List.mem_range.1 hid)
  split
  · next hmem =>
    have hchild := mt (child?_eq_none_iff coherent).1 (not_not_intro hmem)
    obtain ⟨id, hid⟩ := Option.ne_none_iff_exists'.1 hchild
    have htree : (cursor.enter identifier).tree = cursor.tree := by
      simp [enter, Arena.resolve, hid]
    rw [htree]
  · next hmem =>
    have hchild := (child?_eq_none_iff coherent).2 hmem
    have hcount : (cursor.enter identifier).tree.nodeCount = cursor.tree.nodeCount + 1 := by
      simp [enter, Arena.resolve, hchild, nodeCount]
    have hsite : (cursor.enter identifier).site = some cursor.tree.nodeCount := by
      simp [enter, Arena.resolve, hchild, nodeCount]
    rw [path, hsite, sitePath] at hpath
    rw [namespaces, hcount, List.range_succ, List.map_append, List.map_congr_left hold]
    simp [hpath, namespaces]

theorem coherent_declare (coherent : cursor.tree.Coherent) (entry : Entry) :
    (cursor.declare entry).Coherent :=
  Arena.Coherent.declare coherent cursor.here entry

theorem grows_declare (cursor : Cursor) (entry : Entry) :
    cursor.tree.Grows (cursor.declare entry).toArena :=
  Arena.grows_declare entry cursor.here

theorem namespaces_declare (cursor : Cursor) (entry : Entry) :
    (cursor.declare entry).namespaces = cursor.tree.namespaces := by
  have hcount : (cursor.declare entry).nodeCount = cursor.tree.nodeCount :=
    Arena.length_declare entry
  rw [namespaces, hcount]
  exact List.map_congr_left fun id hid ↦
    path_of_grows (grows_declare cursor entry) (List.mem_range.1 hid)

theorem entriesAt_declare (coherent : cursor.tree.Coherent) (entry : Entry) (path : Path) :
    (cursor.declare entry).entriesAt path =
      cursor.tree.entriesAt path ++ if path = cursor.path then [entry] else [] := by
  have coherent' := coherent_declare coherent entry
  have hsitePath {site : Site} (here : cursor.tree.Has site) :=
    sitePath_of_grows (grows_declare cursor entry) here
  by_cases hpath : ∃ site, cursor.tree.Has site ∧ cursor.tree.sitePath site = path
  · obtain ⟨site, here, rfl⟩ := hpath
    have here' := (grows_declare cursor entry).has here
    rw [entriesAt_sitePath coherent here, ← hsitePath here, entriesAt_sitePath coherent' here',
      show (cursor.declare entry).entriesOf site = _ from
        Arena.entriesOf_declare entry cursor.here site, hsitePath here]
    by_cases heq : site = cursor.site
    · simp [heq, Cursor.path]
    · have hne : cursor.tree.sitePath site ≠ cursor.path := fun h ↦
        heq (sitePath_injective coherent here cursor.here h)
      rw [if_neg heq, if_neg hne, List.append_nil]
  · push Not at hpath
    have hne : path ≠ cursor.path := fun h ↦ hpath cursor.site cursor.here h.symm
    have hnone : ∀ site, (cursor.declare entry).Has site →
        (cursor.declare entry).sitePath site ≠ path := fun site here ↦ by
      have here' : cursor.tree.Has site := fun id hid ↦ by
        simpa [Cursor.declare] using here id hid
      rw [hsitePath here']
      exact hpath site here'
    rw [entriesAt_eq_nil coherent hpath, entriesAt_eq_nil coherent' hnone, if_neg hne]
    rfl

/-! ## Going along a path -/

variable {path : Path}

theorem foldl_enter (cursor : Cursor) (coherent : cursor.tree.Coherent)
    (h : ∀ name ∈ path, Key.IsSegment name) :
    (path.foldl enter cursor).tree.Coherent ∧
      cursor.tree.Grows (path.foldl enter cursor).tree.toArena ∧
      (path.foldl enter cursor).path = cursor.path ++ path ∧
      ∀ other, (path.foldl enter cursor).tree.entriesAt other = cursor.tree.entriesAt other := by
  induction path generalizing cursor with
  | nil => exact ⟨coherent, .refl _, (List.append_nil _).symm, fun _ ↦ rfl⟩
  | cons identifier rest ih =>
    have segment := h identifier (List.mem_cons_self ..)
    obtain ⟨hcoherent, hgrows, hpath, hentries⟩ :=
      ih (cursor.enter identifier) (coherent_enter coherent segment) fun name hname ↦
        h name (List.mem_cons_of_mem _ hname)
    refine ⟨hcoherent, (grows_enter cursor identifier).trans hgrows, ?_, fun other ↦ ?_⟩
    · rw [List.foldl_cons, hpath, path_enter coherent, List.append_assoc, List.singleton_append]
    · rw [List.foldl_cons, hentries, entriesAt_enter coherent segment]

theorem mem_namespaces_foldl_enter (coherent : cursor.tree.Coherent)
    (h : ∀ name ∈ path, Key.IsSegment name) (other : Path) :
    other ∈ (path.foldl enter cursor).tree.namespaces ↔
      other ∈ cursor.tree.namespaces ∨
        ∃ front, front ≠ [] ∧ front <+: path ∧ other = cursor.path ++ front := by
  induction path generalizing cursor with
  | nil => simp
  | cons identifier rest ih =>
    have segment := h identifier (List.mem_cons_self ..)
    have hentered : other ∈ (cursor.enter identifier).tree.namespaces ↔
        other ∈ cursor.tree.namespaces ∨ other = cursor.path ++ [identifier] := by
      rw [namespaces_enter coherent]
      split
      · next hmem => exact ⟨.inl, fun hor ↦ hor.elim id fun heq ↦ heq ▸ hmem⟩
      · simp
    rw [List.foldl_cons, ih (coherent_enter coherent segment) fun name hname ↦
      h name (List.mem_cons_of_mem _ hname), hentered, path_enter coherent, or_assoc]
    apply or_congr_right
    constructor
    · rintro (rfl | ⟨front, -, hbegins, rfl⟩)
      · exact ⟨[identifier], by simp, by simp, rfl⟩
      · exact ⟨identifier :: front, by simp, by simpa using hbegins, by simp⟩
    · rintro ⟨front, hne, hbegins, rfl⟩
      obtain ⟨first, others, rfl⟩ := List.exists_cons_of_ne_nil hne
      obtain ⟨rfl, htail⟩ := List.cons_prefix_cons.1 hbegins
      cases others with
      | nil => exact .inl rfl
      | cons second others => exact .inr ⟨second :: others, by simp, htail, by simp⟩

/-! ## The number of entries -/

theorem sites_enter (cursor : Cursor) (identifier : String) :
    (cursor.enter identifier).tree.sites = cursor.tree.sites ∨
      (cursor.enter identifier).tree.sites = cursor.tree.sites ++ [some cursor.tree.nodeCount] := by
  simp only [enter, sites, nodeCount, Arena.resolve]
  split
  · exact .inl rfl
  · exact .inr (by simp [List.range_succ])

theorem entries_enter (cursor : Cursor) (identifier : String) :
    (cursor.enter identifier).tree.entries = cursor.tree.entries := by
  have hsame : (cursor.enter identifier).tree.entriesOf = cursor.tree.entriesOf :=
    funext (Arena.entriesOf_resolve identifier cursor.here)
  rw [entries_eq_flatMap_sites, entries_eq_flatMap_sites, hsame]
  rcases sites_enter cursor identifier with h | h
  · rw [h]
  · have hnew : cursor.tree.entriesOf (some cursor.tree.nodeCount) = [] :=
      Arena.entriesOf_eq_nil (by simp [nodeCount])
    simp [h, hnew]

theorem entries_foldl_enter (cursor : Cursor) (path : Path) :
    (path.foldl enter cursor).tree.entries = cursor.tree.entries := by
  induction path generalizing cursor with
  | nil => rfl
  | cons identifier rest ih => exact (ih _).trans (entries_enter cursor identifier)

/-- An entry only shows at the site where it is declared. -/
theorem flatMap_entriesOf_declare (cursor : Cursor) (entry : Entry) {sites : List Site}
    (h : cursor.site ∉ sites) :
    sites.flatMap (cursor.declare entry).entriesOf = sites.flatMap cursor.tree.entriesOf := by
  apply List.flatMap_congr
  intro site hsite
  have hne : site ≠ cursor.site := fun heq ↦ h (heq ▸ hsite)
  exact (Arena.entriesOf_declare entry cursor.here site).trans (if_neg hne)

theorem entries_declare (cursor : Cursor) (entry : Entry) :
    (cursor.declare entry).entries.Perm (cursor.tree.entries ++ [entry]) := by
  have hsites : (cursor.declare entry).sites = cursor.tree.sites := by
    simp [sites, nodeCount, declare]
  obtain ⟨before, after, hsplit⟩ := List.append_of_mem (mem_sites.2 cursor.here)
  have hnodup := hsplit ▸ nodup_sites cursor.tree
  have hbefore : cursor.site ∉ before := fun hsite ↦
    List.disjoint_of_nodup_append hnodup hsite (List.mem_cons_self ..)
  have hafter : cursor.site ∉ after := (List.nodup_cons.1 hnodup.of_append_right).1
  have hself : (cursor.declare entry).entriesOf cursor.site =
      cursor.tree.entriesOf cursor.site ++ [entry] :=
    (Arena.entriesOf_declare entry cursor.here cursor.site).trans (if_pos rfl)
  rw [entries_eq_flatMap_sites, entries_eq_flatMap_sites, hsites, hsplit]
  simp only [List.flatMap_append, List.flatMap_cons, flatMap_entriesOf_declare cursor entry hbefore,
    flatMap_entriesOf_declare cursor entry hafter, hself, List.append_assoc]
  exact (List.perm_append_comm.append_left _).append_left _

end Cursor

end LocalizedAccessors.NamespaceTree
