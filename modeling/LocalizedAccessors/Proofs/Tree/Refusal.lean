import LocalizedAccessors.Proofs.Tree.Trie

/-!
# Refused insertions

An insertion never disturbs what is in the tree already. If it is refused, it leaves the namespaces
around the key without an entry in them, and these are the ones that the next insertion of the key
asks for anyway. So a refused key can be inserted again with other arguments, and nothing shows that
it was refused before.
-/

namespace LocalizedAccessors.NamespaceTree

variable {tree : NamespaceTree}

namespace Cursor

variable {cursor : Cursor} {path : Path}

theorem eq_of_tree_of_site {first second : Cursor} (htree : first.tree = second.tree)
    (hsite : first.site = second.site) : first = second := by
  cases first
  cases second
  simp_all

/-- Entering a namespace that is there only moves the cursor. -/
theorem enter_of_child? {identifier : String} {id : Nat}
    (h : cursor.tree.child? cursor.site identifier = some id) :
    (cursor.enter identifier).tree = cursor.tree ∧ (cursor.enter identifier).site = some id := by
  simp [enter, Arena.resolve, h]

/-- Going along a path that is there only moves the cursor. -/
theorem foldl_enter_of_locate? {site : Site}
    (h : cursor.tree.locate? cursor.site path = some site) :
    (path.foldl enter cursor).tree = cursor.tree ∧ (path.foldl enter cursor).site = site := by
  induction path generalizing cursor with
  | nil => exact ⟨rfl, Option.some.inj h⟩
  | cons identifier rest ih =>
    obtain ⟨id, hid, hrest⟩ := Option.bind_eq_some_iff.1 h
    obtain ⟨htree, hsite⟩ := enter_of_child? hid
    rw [← htree, ← hsite] at hrest
    obtain ⟨htree', hsite'⟩ := ih hrest
    exact ⟨htree'.trans htree, hsite'⟩

theorem entriesOf_foldl_enter (cursor : Cursor) (path : Path) (site : Site) :
    (path.foldl enter cursor).tree.entriesOf site = cursor.tree.entriesOf site := by
  induction path generalizing cursor with
  | nil => rfl
  | cons identifier rest ih =>
    exact (ih _).trans (Arena.entriesOf_resolve identifier cursor.here site)

/-- The beginnings of a path behind a front, the shortest first. -/
theorem map_inits_tail_cons (front : Path) (identifier : String) (rest : Path) :
    (identifier :: rest).inits.tail.map (front ++ ·) =
      (front ++ [identifier]) :: rest.inits.tail.map (front ++ [identifier] ++ ·) := by
  cases rest with
  | nil => simp
  | cons second rest => simp [Function.comp_def]

/-- The paths that are new after going along a path are those on the way that were missing, the
outermost first. -/
theorem namespaces_foldl_enter (coherent : cursor.tree.Coherent)
    (h : ∀ name ∈ path, Key.IsSegment name) :
    (path.foldl enter cursor).tree.namespaces = cursor.tree.namespaces ++
      (path.inits.tail.map (cursor.path ++ ·)).filter (· ∉ cursor.tree.namespaces) := by
  induction path generalizing cursor with
  | nil => simp
  | cons identifier rest ih =>
    have segment := h identifier List.mem_cons_self
    have hrest := ih (coherent_enter coherent segment) fun name hname ↦
      h name (List.mem_cons_of_mem _ hname)
    rw [List.foldl_cons, hrest, path_enter coherent, namespaces_enter coherent,
      map_inits_tail_cons]
    split
    · next hmem => simp [hmem]
    · next hmem =>
      -- The paths behind the new one are longer than it, so it does not count against them.
      have hlonger : ∀ other ∈ rest.inits.tail.map (cursor.path ++ [identifier] ++ ·),
          other ≠ cursor.path ++ [identifier] := by
        intro other hother heq
        obtain ⟨back, hback, rfl⟩ := List.mem_map.1 hother
        exact (mem_inits_tail.1 hback).1 (List.append_right_eq_self.1 heq)
      have hfilter : (rest.inits.tail.map (cursor.path ++ [identifier] ++ ·)).filter
            (· ∉ cursor.tree.namespaces ++ [cursor.path ++ [identifier]]) =
          (rest.inits.tail.map (cursor.path ++ [identifier] ++ ·)).filter
            (· ∉ cursor.tree.namespaces) :=
        List.filter_congr fun other hother ↦ by simp [hlonger other hother]
      rw [hfilter, List.filter_cons_of_pos (by simpa using hmem), List.append_assoc,
        List.singleton_append]

end Cursor

/-- Growing a tree along the namespaces of a key once more changes nothing. -/
theorem grow_grow (coherent : tree.Coherent) (key : String) :
    (tree.grow (Key.enclosing key)).tree.grow (Key.enclosing key) =
      tree.grow (Key.enclosing key) := by
  let grown := tree.grow (Key.enclosing key)
  have hlocate : grown.tree.locate? none (Key.enclosing key) = some grown.site := by
    rw [← path_grow coherent key]
    exact locate?_sitePath (coherent_grow coherent key) grown.here
  obtain ⟨htree, hsite⟩ := @Cursor.foldl_enter_of_locate? (.atTop grown.tree) _ _ hlocate
  exact Cursor.eq_of_tree_of_site htree hsite

theorem grow_of_known (coherent : tree.Coherent) {key : String}
    (h : ∀ path ∈ ancestry key, path ∈ tree.namespaces) :
    (tree.grow (Key.enclosing key)).tree = tree := by
  have hlocate : ∃ site, tree.locate? none (Key.enclosing key) = some site := by
    by_cases hne : Key.enclosing key = []
    · exact ⟨none, by rw [hne]; rfl⟩
    · obtain ⟨id, hid, hpath⟩ :=
        mem_namespaces.1 (h _ (mem_ancestry.2 ⟨hne, List.prefix_refl _⟩))
      exact ⟨some id, hpath ▸ locate?_path coherent hid⟩
  obtain ⟨site, hsite⟩ := hlocate
  exact (@Cursor.foldl_enter_of_locate? (.atTop tree) _ _ hsite).1

theorem grows_insert (coherent : tree.Coherent) (call : Call) :
    tree.Grows (tree.insert call.key call.arguments).1.toArena := by
  by_cases h : Key.Skipped call.key
  · rw [insert_of_skipped h]
    exact .refl _
  · have hgrow : tree.Grows (tree.grow (Key.enclosing call.key)).tree.toArena :=
      (Cursor.foldl_enter (.atTop tree) coherent fun _ ↦ Key.isSegment_of_mem_enclosing).2.1
    rw [insert_of_not_skipped coherent h]
    cases call.make with
    | error mismatch => exact hgrow
    | ok entry => exact hgrow.trans (Cursor.grows_declare _ entry)

/-- A refused insertion leaves the namespaces around its key and nothing else. -/
theorem insert_of_refused (coherent : tree.Coherent) (call : Call) {mismatch : ArgumentMismatch}
    (h : (tree.insert call.key call.arguments).2 = .error mismatch) :
    ¬Key.Skipped call.key ∧
      (tree.insert call.key call.arguments).1 = (tree.grow (Key.enclosing call.key)).tree := by
  by_cases hskipped : Key.Skipped call.key
  · rw [insert_of_skipped hskipped] at h
    cases h
  · refine ⟨hskipped, ?_⟩
    rw [insert_of_not_skipped coherent hskipped] at h ⊢
    cases hmake : call.make with
    | error mismatch => rfl
    | ok entry =>
      rw [hmake] at h
      cases h

/-- What a refused key leaves of its insertion: every entry list as it was, and the namespaces
around the key that were missing. -/
structure LeavesNamespaces (before : NamespaceTree) (key : String) (after : NamespaceTree) :
    Prop where
  entriesOf_eq : ∀ site, after.entriesOf site = before.entriesOf site
  namespaces_eq : after.namespaces =
    before.namespaces ++ (ancestry key).filter (· ∉ before.namespaces)
  entriesOf_new : ∀ id, before.nodeCount ≤ id → after.entriesOf (some id) = []
  eq_of_known : (∀ path ∈ ancestry key, path ∈ before.namespaces) → after = before

theorem leavesNamespaces_grow (coherent : tree.Coherent) (key : String) :
    tree.LeavesNamespaces key (tree.grow (Key.enclosing key)).tree where
  entriesOf_eq := Cursor.entriesOf_foldl_enter (.atTop tree) _
  namespaces_eq := by
    have hgrow := @Cursor.namespaces_foldl_enter (.atTop tree) (Key.enclosing key) coherent
      fun _ ↦ Key.isSegment_of_mem_enclosing
    have hfronts : (Key.enclosing key).inits.tail.map ((Cursor.atTop tree).path ++ ·) =
        ancestry key := List.map_id _
    rwa [hfronts] at hgrow
  entriesOf_new id hid := by
    have hentries : _ = tree.entriesOf (some id) :=
      Cursor.entriesOf_foldl_enter (.atTop tree) (Key.enclosing key) (some id)
    rw [grow, hentries]
    exact Arena.entriesOf_eq_nil (by simpa [nodeCount] using hid)
  eq_of_known := grow_of_known coherent

/-- After a refused insertion, the next insertion of the key does what it would have done before. -/
theorem insert_again (coherent : tree.Coherent) {key : String}
    {arguments others : List ArgumentKind} {mismatch : ArgumentMismatch}
    (h : (tree.insert key arguments).2 = .error mismatch) :
    (tree.insert key arguments).1.insert key others = tree.insert key others := by
  obtain ⟨hnamed, htree⟩ := insert_of_refused coherent ⟨key, arguments⟩ h
  have hagain := @insert_of_not_skipped _ (coherent_grow coherent key) ⟨key, others⟩ hnamed
  have honce := @insert_of_not_skipped _ coherent ⟨key, others⟩ hnamed
  rw [htree, hagain, honce, grow_grow coherent key]

/-- Insertions only add to a tree. One that is refused adds no entry and no namespace other than
those around its key that were missing, and after it the key can be inserted as if it had not been
tried. -/
theorem insert_retained_run (calls : List Call) (key : String) (arguments : List ArgumentKind) :
    (empty.run calls).1.Grows ((empty.run calls).1.insert key arguments).1.toArena ∧
    ∀ mismatch, ((empty.run calls).1.insert key arguments).2 = .error mismatch →
      (empty.run calls).1.LeavesNamespaces key ((empty.run calls).1.insert key arguments).1 ∧
      ∀ others, ((empty.run calls).1.insert key arguments).1.insert key others =
        (empty.run calls).1.insert key others := by
  have coherent := coherent_run_empty calls
  refine ⟨grows_insert coherent ⟨key, arguments⟩, fun mismatch hrefused ↦ ⟨?_, fun others ↦ ?_⟩⟩
  · rw [(insert_of_refused coherent ⟨key, arguments⟩ hrefused).2]
    exact leavesNamespaces_grow coherent key
  · exact insert_again coherent hrefused

/-- A key with a label too many is refused, and its namespace stays. -/
example :
    (empty.insert "menu.days_:" []).2 = .error ⟨"menu.days_:", 0, 1⟩ ∧
      (empty.insert "menu.days_:" []).1.nodeCount = 1 := by decide +kernel

end LocalizedAccessors.NamespaceTree
