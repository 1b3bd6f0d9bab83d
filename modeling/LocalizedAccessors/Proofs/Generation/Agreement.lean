import LocalizedAccessors.Accessor.Generation
import LocalizedAccessors.Proofs.Tree.Trie

/-!
# Agreement of keys and values

A key agrees with its value if it declares as many labels as the value takes arguments; a key that
is skipped agrees with every value. Whether a generation succeeds, what it leaves in the tree and
which mismatch it reports otherwise can all be told from the pairs that disagree, without a tree
being built.
-/

namespace LocalizedAccessors

/-- How many labels a key declares: one for every piece of its last segment but the first. -/
def Key.labelCount (key : String) : Nat := (Text.pieces '_' (leaf key)).length - 1

namespace Call

/-- The call that a pair of a catalog comes to. -/
def ofPair (pair : String × String) : Call := ⟨pair.1, Placeholder.classify pair.2⟩

def Agrees (call : Call) : Prop :=
  Key.Skipped call.key ∨ Key.labelCount call.key = call.arguments.length

instance (call : Call) : Decidable call.Agrees :=
  inferInstanceAs (Decidable (Key.Skipped call.key ∨ _))

/-- What is reported of a call that does not agree. -/
def mismatch (call : Call) : ArgumentMismatch where
  path := ".".intercalate (Key.segments call.key)
  expected := call.arguments.length
  found := Key.labelCount call.key

variable {call : Call}

theorem length_bindingsOf_leaf (key : String) :
    (Entry.bindingsOf (Text.pieces '_' (Key.leaf key)).tail).length = Key.labelCount key := by
  rw [Entry.bindingsOf, List.length_mapIdx, List.length_tail, Key.labelCount]

theorem make_eq_error (h : Key.labelCount call.key ≠ call.arguments.length) :
    call.make = .error call.mismatch := by
  simp only [make, Entry.make, length_bindingsOf_leaf, if_neg h]
  rfl

theorem exists_make_eq_ok (h : Key.labelCount call.key = call.arguments.length) :
    ∃ entry, call.make = .ok entry := by
  simp only [make, Entry.make, length_bindingsOf_leaf, if_pos h]
  exact ⟨_, rfl⟩

theorem outcome_of_agrees (h : call.Agrees) : call.outcome = .ok () := by
  unfold outcome
  split
  · rfl
  · next hkey =>
    obtain ⟨entry, hmake⟩ := exists_make_eq_ok (h.resolve_left hkey)
    rw [hmake]
    rfl

theorem outcome_of_not_agrees (h : ¬call.Agrees) : call.outcome = .error call.mismatch := by
  obtain ⟨hkey, hcount⟩ := not_or.1 h
  rw [outcome, if_neg hkey, make_eq_error hcount]
  rfl

theorem isSome_entry?_of_agrees (h : call.Agrees) :
    call.entry?.isSome = true ↔ ¬Key.Skipped call.key := by
  unfold entry?
  split
  · next hkey => simp [hkey]
  · next hkey =>
    obtain ⟨entry, hmake⟩ := exists_make_eq_ok (h.resolve_left hkey)
    simp [hmake, hkey, Except.toOption]

end Call

namespace NamespaceTree

variable {tree : NamespaceTree}

@[simp] theorem value_insertReporting (tree : NamespaceTree) (key : String)
    (arguments : List ArgumentKind) :
    (tree.insertReporting key arguments).value = tree.insert key arguments := by
  unfold insertReporting
  split <;> rfl

theorem value_insertAll_cons (coherent : tree.Coherent) (pair : String × String)
    (rest : List (String × String)) :
    (tree.insertAll (pair :: rest)).value =
      match (Call.ofPair pair).outcome with
      | .error mismatch => .error mismatch
      | .ok () =>
        ((tree.insert pair.1 (Placeholder.classify pair.2)).1.insertAll rest).value := by
  have houtcome := insert_outcome coherent (Call.ofPair pair)
  rw [insertAll, Reported.value_bind, value_insertReporting]
  simp only [Call.ofPair] at houtcome ⊢
  rw [← houtcome]
  split
  · next hinsert => simp [hinsert]
  · next hinsert => simp [hinsert]

/-- Keys are inserted up to the first that does not agree with its value. -/
theorem value_insertAll (coherent : tree.Coherent) (pairs : List (String × String)) :
    (tree.insertAll pairs).value =
      match (pairs.map Call.ofPair).find? fun call ↦ ¬call.Agrees with
      | none => .ok (tree.run (pairs.map Call.ofPair)).1
      | some call => .error call.mismatch := by
  induction pairs generalizing tree with
  | nil => rfl
  | cons pair rest ih =>
    rw [value_insertAll_cons coherent, List.map_cons, List.find?_cons]
    by_cases h : (Call.ofPair pair).Agrees
    · simp only [Call.outcome_of_agrees h, h, not_true, decide_false]
      exact ih (coherent_insert coherent (Call.ofPair pair))
    · simp [Call.outcome_of_not_agrees h, h]

/-- Calls that all agree leave one entry for every key that is not skipped. -/
theorem entries_run_of_agrees {calls : List Call} (h : ∀ call ∈ calls, call.Agrees) :
    ((empty.run calls).1.entries.map fun entry ↦ (entry.key, entry.arguments)).Perm
      ((calls.filter fun call ↦ ¬Key.Skipped call.key).map
        fun call ↦ (call.key, call.arguments)) := by
  have hentries : (empty.run calls).1.entries.Perm (calls.filterMap Call.entry?) :=
    entries_run coherent_empty calls
  have hfilter : (calls.filter fun call ↦ call.entry?.isSome) =
      calls.filter fun call ↦ ¬Key.Skipped call.key := by
    apply List.filter_congr
    intro call hcall
    rw [Bool.eq_iff_iff, Call.isSome_entry?_of_agrees (h call hcall), decide_eq_true_iff]
  have hrows := congrArg (List.map fun row : String × String × List ArgumentKind ↦ (row.1, row.2.2))
    (map_filterMap_calls calls)
  rw [List.map_map, List.map_map, hfilter] at hrows
  exact (hentries.map _).trans (.of_eq hrows)

end NamespaceTree

namespace Catalog

theorem nodup_keys (catalog : Catalog) : (catalog.pairs.map Prod.fst).Nodup := by
  apply List.pairwise_map.2
  exact catalog.ascending.imp fun hlt ↦ Std.ne_of_lt hlt

/-- Of the pairs that have a property, the one that is found first has the least key. -/
theorem le_of_find?_eq_some {catalog : Catalog} {p : String × String → Bool}
    {pair other : String × String} (h : catalog.pairs.find? p = some pair)
    (hother : other ∈ catalog.pairs) (hp : p other = true) : pair.1 ≤ other.1 := by
  obtain ⟨-, before, after, hsplit, hbefore⟩ := List.find?_eq_some_iff_append.1 h
  have hascending := hsplit ▸ catalog.ascending
  have hafter := (List.pairwise_cons.1 (List.pairwise_append.1 hascending).2.1).1
  rw [hsplit, List.mem_append, List.mem_cons] at hother
  rcases hother with hother | rfl | hother
  · exact absurd hp (by simpa using hbefore other hother)
  · exact String.le_refl _
  · exact Std.le_of_lt (hafter other hother)

/-- The calls that a generation makes. -/
def calls (catalog : Catalog) : List Call := catalog.pairs.map Call.ofPair

/-- The first pair whose key does not agree with its value. -/
def disagreement? (catalog : Catalog) : Option (String × String) :=
  catalog.pairs.find? fun pair ↦ ¬(Call.ofPair pair).Agrees

theorem disagreement?_eq_none {catalog : Catalog} :
    catalog.disagreement? = none ↔ ∀ pair ∈ catalog.pairs, (Call.ofPair pair).Agrees := by
  simp [disagreement?]

end Catalog

namespace NamespaceTree

/-- Calls that all agree leave one entry for every key that is not skipped. -/
theorem entries_run_calls {catalog : Catalog} (h : catalog.disagreement? = none) :
    ((empty.run catalog.calls).1.entries.map fun entry ↦ (entry.key, entry.arguments)).Perm
      ((catalog.pairs.filter fun pair ↦ ¬Key.Skipped pair.1).map
        fun pair ↦ (pair.1, Placeholder.classify pair.2)) := by
  have hagree : ∀ call ∈ catalog.calls, call.Agrees :=
    List.forall_mem_map.2 (Catalog.disagreement?_eq_none.1 h)
  have hentries := entries_run_of_agrees hagree
  rw [Catalog.calls, List.filter_map, List.map_map] at hentries
  exact hentries

theorem keys_run_calls {catalog : Catalog} (h : catalog.disagreement? = none) :
    ((empty.run catalog.calls).1.entries.map Entry.key).Perm
      ((catalog.pairs.filter fun pair ↦ ¬Key.Skipped pair.1).map Prod.fst) := by
  have hkeys := (entries_run_calls h).map Prod.fst
  rw [List.map_map, List.map_map] at hkeys
  exact hkeys

theorem nodup_keys_run_calls {catalog : Catalog} (h : catalog.disagreement? = none) :
    ((empty.run catalog.calls).1.entries.map Entry.key).Nodup :=
  (keys_run_calls h).nodup_iff.2 (catalog.nodup_keys.sublist (List.filter_sublist.map _))

end NamespaceTree

theorem value_generate (catalog : Catalog) (options : GenerationOptions) :
    (generate catalog options).value =
      match catalog.disagreement? with
      | none =>
        let tree := (NamespaceTree.empty.run catalog.calls).1
        .ok ⟨fileHeader options.message ++ tree.render options.style, tree⟩
      | some pair => .error (Call.ofPair pair).mismatch := by
  have hinsert := NamespaceTree.value_insertAll NamespaceTree.coherent_empty catalog.pairs
  rw [List.find?_map] at hinsert
  rw [generate, Reported.value_bind, hinsert, Catalog.disagreement?, Catalog.calls]
  simp only [Function.comp_def]
  cases catalog.pairs.find? fun pair ↦ ¬(Call.ofPair pair).Agrees <;> rfl

theorem of_generate_eq_ok {catalog : Catalog} {options : GenerationOptions} {generated : Generated}
    (h : (generate catalog options).value = .ok generated) :
    catalog.disagreement? = none ∧ generated.tree = (NamespaceTree.empty.run catalog.calls).1 := by
  rw [value_generate] at h
  split at h
  · next hnone =>
    obtain rfl := Except.ok.inj h
    exact ⟨hnone, rfl⟩
  · simp at h

theorem fileHeader_ne_empty (message : Option String) : fileHeader message ≠ "" := by
  simp [fileHeader]

theorem contents_ne_empty {catalog : Catalog} {options : GenerationOptions} {generated : Generated}
    (h : (generate catalog options).value = .ok generated) : generated.contents ≠ "" := by
  rw [value_generate] at h
  split at h
  · obtain rfl := Except.ok.inj h
    exact fun hempty ↦ fileHeader_ne_empty _ (String.append_eq_empty_iff.1 hempty).1
  · simp at h

/-- A generation succeeds if and only if every key agrees with its value. Then its tree has one
entry for every key that is not skipped, with the kinds of its value in order; otherwise the
mismatch of the least key that disagrees is reported. -/
theorem generate_cases (catalog : Catalog) (options : GenerationOptions) :
    ((∃ generated, (generate catalog options).value = .ok generated) ↔
      ∀ pair ∈ catalog.pairs, ¬Key.Skipped pair.1 →
        Key.labelCount pair.1 = (Placeholder.classify pair.2).length) ∧
    (∀ generated, (generate catalog options).value = .ok generated →
      (generated.tree.entries.map Entry.key).Nodup ∧
      (generated.tree.entries.map fun entry ↦ (entry.key, entry.arguments)).Perm
        ((catalog.pairs.filter fun pair ↦ ¬Key.Skipped pair.1).map
          fun pair ↦ (pair.1, Placeholder.classify pair.2))) ∧
    ∀ mismatch, (generate catalog options).value = .error mismatch →
      ∃ pair ∈ catalog.pairs, ¬(Call.ofPair pair).Agrees ∧
        (∀ other ∈ catalog.pairs, ¬(Call.ofPair other).Agrees → pair.1 ≤ other.1) ∧
        mismatch = ⟨".".intercalate (Key.segments pair.1),
          (Placeholder.classify pair.2).length, Key.labelCount pair.1⟩ := by
  have hagree : catalog.disagreement? = none ↔ ∀ pair ∈ catalog.pairs, ¬Key.Skipped pair.1 →
      Key.labelCount pair.1 = (Placeholder.classify pair.2).length := by
    rw [Catalog.disagreement?_eq_none]
    exact forall₂_congr fun pair _ ↦ or_iff_not_imp_left
  rw [value_generate]
  cases hfound : catalog.disagreement? with
  | none =>
    refine ⟨iff_of_true ⟨_, rfl⟩ (hagree.1 hfound), ?_, by simp⟩
    rintro _ ⟨⟩
    exact ⟨NamespaceTree.nodup_keys_run_calls hfound, NamespaceTree.entries_run_calls hfound⟩
  | some pair =>
    have hne : ¬catalog.disagreement? = none := by simp [hfound]
    refine ⟨iff_of_false (by simp) (mt hagree.2 hne), by simp, ?_⟩
    rintro _ ⟨⟩
    refine ⟨pair, List.mem_of_find?_eq_some hfound, ?_, ?_, rfl⟩
    · simpa using List.find?_some hfound
    · intro other hother hnot
      exact Catalog.le_of_find?_eq_some hfound hother (by simpa using hnot)

end LocalizedAccessors
