import LocalizedAccessors.Proofs.Generation.Agreement
import Mathlib.Data.List.Dedup
import Mathlib.Data.List.Sort
import Mathlib.Data.String.Basic

/-!
# Merging sources

What a catalog holds after sources were added can be told from their pairs alone: every key has the
last value that it was given. A catalog that accepts no key twice accepts some sources exactly if
all their keys are distinct, and then their order is of no account.
-/

namespace LocalizedAccessors

/-- A list of localized strings with the name that errors tell it by. -/
structure Source where
  origin : String
  pairs : List (String × String)
  deriving DecidableEq, Repr

/-- The pairs of all sources, one source after another. -/
def Source.allPairs (sources : List Source) : List (String × String) :=
  sources.flatMap Source.pairs

namespace Catalog

variable {catalog first second : Catalog} {pairs others : List (String × String)}

/-! ## What a catalog holds -/

theorem lookup_eq_some_iff {key value : String} (h : (pairs.map Prod.fst).Nodup) :
    pairs.lookup key = some value ↔ (key, value) ∈ pairs := by
  induction pairs with
  | nil => simp
  | cons pair rest ih =>
    obtain ⟨hpair, hrest⟩ := List.nodup_cons.1 h
    have hne : ∀ value, (pair.1, value) ∉ rest := fun value hmem ↦
      hpair (List.mem_map.2 ⟨_, hmem, rfl⟩)
    rw [List.lookup_cons, List.mem_cons, Prod.ext_iff]
    by_cases heq : key = pair.1
    · simp [heq, hne, eq_comm]
    · simp [beq_eq_false_iff_ne.2 heq, heq, ih hrest]

theorem lookup_eq_none_iff {key : String} :
    pairs.lookup key = none ↔ key ∉ pairs.map Prod.fst := by
  rw [List.lookup_eq_none_iff]
  simp only [List.mem_map, not_exists, not_and, bne_iff_ne, ne_comm]

theorem lookup_reverse_eq_none {key : String} :
    pairs.reverse.lookup key = none ↔ key ∉ pairs.map Prod.fst := by
  rw [lookup_eq_none_iff, List.map_reverse, List.mem_reverse]

theorem mem_pairs_iff {pair : String × String} :
    pair ∈ catalog.pairs ↔ catalog.get? pair.1 = some pair.2 :=
  (lookup_eq_some_iff catalog.nodup_keys).symm

/-- Catalogs that say the same about every key hold the same pairs in the same order. -/
theorem pairs_eq_of_get? (h : ∀ key, first.get? key = second.get? key) :
    first.pairs = second.pairs := by
  have hperm : first.pairs.Perm second.pairs := by
    rw [List.perm_ext_iff_of_nodup first.nodup_keys.of_map second.nodup_keys.of_map]
    intro pair
    rw [mem_pairs_iff, mem_pairs_iff, h]
  apply List.Perm.eq_of_pairwise _ first.ascending second.ascending hperm
  intro a b _ _ hab hba
  exact absurd hba hab.not_gt

theorem eq_of_pairs (hpolicy : first.policy = second.policy) (h : first.pairs = second.pairs) :
    first = second := by
  cases first
  cases second
  simp_all

/-! ## Insertions -/

/-- The catalog after some pairs were inserted one after another. -/
def insertAll (catalog : Catalog) (pairs : List (String × String)) : Catalog :=
  pairs.foldl (fun catalog pair ↦ catalog.insert pair.1 pair.2) catalog

theorem insertAll_cons (catalog : Catalog) (pair : String × String)
    (rest : List (String × String)) :
    catalog.insertAll (pair :: rest) = (catalog.insert pair.1 pair.2).insertAll rest := rfl

theorem insertAll_append (catalog : Catalog) (pairs others : List (String × String)) :
    catalog.insertAll (pairs ++ others) = (catalog.insertAll pairs).insertAll others :=
  List.foldl_append

@[simp] theorem policy_insertAll (catalog : Catalog) (pairs : List (String × String)) :
    (catalog.insertAll pairs).policy = catalog.policy := by
  induction pairs generalizing catalog with
  | nil => rfl
  | cons pair rest ih => rw [insertAll_cons, ih, policy_insert]

/-- A key has the last value that it was given. -/
theorem get?_insertAll (catalog : Catalog) (pairs : List (String × String)) (key : String) :
    (catalog.insertAll pairs).get? key = (pairs.reverse.lookup key).or (catalog.get? key) := by
  induction pairs generalizing catalog with
  | nil => rfl
  | cons pair rest ih =>
    rw [insertAll_cons, ih, get?_insert, List.reverse_cons, List.lookup_append, Option.or_assoc]
    congr 1
    rw [List.lookup_cons, List.lookup_nil]
    by_cases h : key = pair.1
    · simp [h]
    · simp [beq_eq_false_iff_ne.2 h, h]

theorem get?_insertAll_empty (policy : DuplicatePolicy) (pairs : List (String × String))
    (key : String) : ((empty policy).insertAll pairs).get? key = pairs.reverse.lookup key := by
  rw [get?_insertAll, get?_empty, Option.or_none]

/-- The keys of a catalog are those of the pairs that were inserted. -/
theorem keys_insertAll_perm (policy : DuplicatePolicy) (pairs : List (String × String)) :
    (((empty policy).insertAll pairs).pairs.map Prod.fst).Perm (pairs.map Prod.fst).dedup := by
  rw [List.perm_ext_iff_of_nodup (nodup_keys _) (List.nodup_dedup _)]
  intro key
  rw [List.mem_dedup, ← not_iff_not, ← lookup_eq_none_iff, ← lookup_reverse_eq_none,
    ← get?_insertAll_empty policy]
  rfl

/-- Where no key is given twice, the order of the pairs is of no account. -/
theorem pairs_insertAll_of_perm {policy other : DuplicatePolicy} (perm : pairs.Perm others)
    (distinct : (pairs.map Prod.fst).Nodup) :
    ((empty policy).insertAll pairs).pairs = ((empty other).insertAll others).pairs := by
  have hperm : pairs.reverse.Perm others.reverse :=
    (List.reverse_perm pairs).trans (perm.trans (List.reverse_perm others).symm)
  have hleft : (pairs.reverse.map Prod.fst).Nodup := by
    rwa [List.map_reverse, List.nodup_reverse]
  have hright : (others.reverse.map Prod.fst).Nodup := (hperm.map Prod.fst).nodup hleft
  apply pairs_eq_of_get?
  intro key
  rw [get?_insertAll_empty, get?_insertAll_empty]
  apply Option.ext
  intro value
  rw [lookup_eq_some_iff hleft, lookup_eq_some_iff hright, hperm.mem_iff]

/-- Lists of pairs that share no key can be inserted in either order. -/
theorem insertAll_comm (catalog : Catalog)
    (disjoint : ∀ key ∈ pairs.map Prod.fst, key ∉ others.map Prod.fst) :
    (catalog.insertAll pairs).insertAll others = (catalog.insertAll others).insertAll pairs := by
  apply eq_of_pairs (by simp)
  apply pairs_eq_of_get?
  intro key
  simp only [get?_insertAll]
  by_cases hkey : key ∈ pairs.map Prod.fst
  · rw [lookup_reverse_eq_none.2 (disjoint key hkey), Option.none_or, Option.none_or]
  · rw [lookup_reverse_eq_none.2 hkey, Option.none_or, Option.none_or]

/-! ## Additions -/

/-- Whether some pairs give no key twice, and none that is in the catalog. -/
structure Fresh (catalog : Catalog) (pairs : List (String × String)) : Prop where
  distinct : (pairs.map Prod.fst).Nodup
  unknown : ∀ key ∈ pairs.map Prod.fst, catalog.get? key = none

theorem fresh_cons {pair : String × String} {rest : List (String × String)} :
    catalog.Fresh (pair :: rest) ↔
      catalog.get? pair.1 = none ∧ (catalog.insert pair.1 pair.2).Fresh rest := by
  constructor
  · rintro ⟨distinct, unknown⟩
    obtain ⟨hpair, hrest⟩ := List.nodup_cons.1 distinct
    refine ⟨unknown pair.1 List.mem_cons_self, hrest, fun key hkey ↦ ?_⟩
    have hne : key ≠ pair.1 := fun heq ↦ hpair (heq ▸ hkey)
    rw [get?_insert, if_neg hne]
    exact unknown key (List.mem_cons_of_mem _ hkey)
  · rintro ⟨hpair, distinct, unknown⟩
    have hne : ∀ key ∈ rest.map Prod.fst, key ≠ pair.1 ∧ catalog.get? key = none := by
      intro key hkey
      have h := unknown key hkey
      rw [get?_insert] at h
      split at h
      · simp at h
      · next hne => exact ⟨hne, h⟩
    refine ⟨List.nodup_cons.2 ⟨fun hmem ↦ (hne _ hmem).1 rfl, distinct⟩, ?_⟩
    exact List.forall_mem_cons.2 ⟨hpair, fun key hkey ↦ (hne key hkey).2⟩

theorem fresh_append : catalog.Fresh (pairs ++ others) ↔
    catalog.Fresh pairs ∧ (catalog.insertAll pairs).Fresh others := by
  induction pairs generalizing catalog with
  | nil => exact (and_iff_right ⟨.nil, by simp⟩).symm
  | cons pair rest ih =>
    rw [List.cons_append, fresh_cons, fresh_cons, ih, insertAll_cons, and_assoc]

theorem fresh_empty (policy : DuplicatePolicy) :
    (empty policy).Fresh pairs ↔ (pairs.map Prod.fst).Nodup :=
  ⟨Fresh.distinct, fun distinct ↦ ⟨distinct, fun _ _ ↦ rfl⟩⟩

/-- Whether a catalog takes some pairs. -/
def Admits (catalog : Catalog) (pairs : List (String × String)) : Prop :=
  catalog.policy = .reject → catalog.Fresh pairs

theorem admits_append : catalog.Admits (pairs ++ others) ↔
    catalog.Admits pairs ∧ (catalog.insertAll pairs).Admits others := by
  rw [Admits, Admits, Admits, policy_insertAll, fresh_append, imp_and]

/-- What is admitted is inserted as a whole. -/
theorem value_addAfter_of_admits (origin : String) (added : Nat) (h : catalog.Admits pairs) :
    (catalog.addAfter origin added pairs).value = (catalog.insertAll pairs, .ok ()) := by
  induction pairs generalizing catalog added with
  | nil => rfl
  | cons pair rest ih =>
    have hrest : (catalog.insert pair.1 pair.2).Admits rest := fun hpolicy ↦
      (fresh_cons.1 (h hpolicy)).2
    rw [addAfter]
    split
    · exact ih (added + 1) hrest
    · next hknown =>
      cases hpolicy : catalog.policy with
      | reject => simp [(fresh_cons.1 (h hpolicy)).1] at hknown
      | overwrite =>
        simp only [Reported.value_bind]
        exact ih (added + 1) hrest

/-- Whether a key is in the catalog or given by some pairs. -/
def Knows (catalog : Catalog) (pairs : List (String × String)) (key : String) : Prop :=
  catalog.get? key ≠ none ∨ key ∈ pairs.map Prod.fst

theorem knows_iff {key : String} :
    catalog.Knows pairs key ↔ (catalog.insertAll pairs).get? key ≠ none := by
  rw [get?_insertAll, ne_eq, Option.or_eq_none_iff, lookup_reverse_eq_none, Knows, not_and_or,
    not_not, or_comm]

theorem fresh_iff_not_knows {pair : String × String} :
    catalog.Fresh (pairs ++ pair :: others) ↔ catalog.Fresh pairs ∧
      ¬catalog.Knows pairs pair.1 ∧ (catalog.insertAll (pairs ++ [pair])).Fresh others := by
  rw [fresh_append, fresh_cons, knows_iff, not_not, insertAll_append]
  rfl

/-- Where no key may be defined again, the pairs in front of the first key that is known are
inserted, and this key is what is refused. -/
theorem exists_value_addAfter (origin : String) (added : Nat) (hpolicy : catalog.policy = .reject)
    (pairs : List (String × String)) :
    ∃ front rest, pairs = front ++ rest ∧ catalog.Fresh front ∧
      (∀ pair ∈ rest.head?, catalog.Knows front pair.1) ∧
      (catalog.addAfter origin added pairs).value = (catalog.insertAll front,
        match rest.head? with
        | none => .ok ()
        | some pair => .error ⟨pair.1, origin⟩) := by
  induction pairs generalizing catalog added with
  | nil => exact ⟨[], [], rfl, ⟨.nil, by simp⟩, by simp, rfl⟩
  | cons pair rest ih =>
    rw [addAfter]
    split
    · next hunknown =>
      have hinserted : (catalog.insert pair.1 pair.2).policy = .reject := hpolicy
      obtain ⟨front, back, hsplit, hfresh, hknown, hvalue⟩ := ih (added + 1) hinserted
      refine ⟨pair :: front, back, congrArg (pair :: ·) hsplit,
        fresh_cons.2 ⟨Option.isNone_iff_eq_none.1 hunknown, hfresh⟩, fun next hnext ↦ ?_, hvalue⟩
      rw [knows_iff, insertAll_cons, ← knows_iff]
      exact hknown next hnext
    · next hknown =>
      have hfirst : catalog.get? pair.1 ≠ none := fun hnone ↦ hknown (by simp [hnone])
      rw [hpolicy]
      exact ⟨[], pair :: rest, rfl, ⟨.nil, by simp⟩, by simpa [Knows] using hfirst, rfl⟩

theorem value_addAfter_of_not_admits (origin : String) (added : Nat) (h : ¬catalog.Admits pairs) :
    ∃ kept duplicate, (catalog.addAfter origin added pairs).value = (kept, .error duplicate) := by
  obtain ⟨hpolicy, hfresh⟩ := Classical.not_imp.1 h
  obtain ⟨front, rest, rfl, hfront, -, hvalue⟩ :=
    exists_value_addAfter origin added hpolicy pairs
  cases rest with
  | nil => exact absurd hfront (by simpa using hfresh)
  | cons pair rest => exact ⟨_, _, hvalue⟩

/-- The catalog after some sources were added one after another, up to the first that it does not
take as a whole. -/
def addAll (catalog : Catalog) : List Source → Except DuplicateKey Catalog
  | [] => .ok catalog
  | source :: rest =>
    match (catalog.add source.origin source.pairs).value with
    | (merged, .ok ()) => merged.addAll rest
    | (_, .error duplicate) => .error duplicate

/-- Sources are added as a whole or not at all, and it is their pairs that decide it. -/
theorem addAll_eq_ok {sources : List Source} {merged : Catalog} :
    catalog.addAll sources = .ok merged ↔
      catalog.Admits (Source.allPairs sources) ∧
        merged = catalog.insertAll (Source.allPairs sources) := by
  induction sources generalizing catalog with
  | nil =>
    have hadmits : catalog.Admits (Source.allPairs []) := fun _ ↦ ⟨.nil, by simp [Source.allPairs]⟩
    rw [and_iff_right hadmits, addAll, Except.ok.injEq, eq_comm]
    rfl
  | cons source rest ih =>
    have hpairs : Source.allPairs (source :: rest) = source.pairs ++ Source.allPairs rest :=
      List.flatMap_cons
    rw [hpairs, admits_append, insertAll_append, addAll, add]
    by_cases hadmits : catalog.Admits source.pairs
    · rw [value_addAfter_of_admits source.origin 0 hadmits, and_iff_right hadmits]
      exact ih
    · obtain ⟨kept, duplicate, hadd⟩ := value_addAfter_of_not_admits source.origin 0 hadmits
      simp [hadd, hadmits]

theorem addAll_of_admits {sources : List Source} (h : catalog.Admits (Source.allPairs sources)) :
    catalog.addAll sources = .ok (catalog.insertAll (Source.allPairs sources)) :=
  addAll_eq_ok.2 ⟨h, rfl⟩

theorem admits_of_overwrite (h : catalog.policy = .overwrite) (pairs : List (String × String)) :
    catalog.Admits pairs := by
  simp [Admits, h]

theorem addAll_overwrite (sources : List Source) :
    (empty .overwrite).addAll sources = .ok (ofPairs (Source.allPairs sources)) :=
  addAll_of_admits (admits_of_overwrite rfl _)

theorem exists_addAll_reject {sources : List Source} :
    (∃ merged, (empty .reject).addAll sources = .ok merged) ↔
      ((Source.allPairs sources).map Prod.fst).Nodup := by
  simp only [addAll_eq_ok, exists_and_left, exists_eq, and_true]
  exact ⟨fun h ↦ (h rfl).distinct, fun distinct _ ↦ (fresh_empty .reject).2 distinct⟩

/-! ## The order of sources -/

theorem ofPairs_of_perm (perm : pairs.Perm others) (distinct : (pairs.map Prod.fst).Nodup) :
    ofPairs pairs = ofPairs others :=
  eq_of_pairs ((policy_insertAll _ pairs).trans (policy_insertAll _ others).symm)
    (pairs_insertAll_of_perm perm distinct)

/-- Neighbouring sources that share no key can change places. -/
theorem ofPairs_exchange {before first second after : List (String × String)}
    (disjoint : ∀ key ∈ first.map Prod.fst, key ∉ second.map Prod.fst) :
    ofPairs (before ++ (first ++ (second ++ after))) =
      ofPairs (before ++ (second ++ (first ++ after))) := by
  change (empty .overwrite).insertAll _ = (empty .overwrite).insertAll _
  simp only [insertAll_append]
  rw [insertAll_comm _ disjoint]

end Catalog

/-- Nothing but the pairs of a catalog counts for what is generated, and for what is reported. -/
theorem generate_congr {first second : Catalog} (h : first.pairs = second.pairs)
    (options : GenerationOptions) : generate first options = generate second options := by
  rw [generate, generate, Catalog.size, Catalog.size, h]

namespace Catalog

/-- Sources of the same pairs, in whatever order these come and however they are divided. Where no
key may be defined again, both are taken if and only if all keys are distinct. Then the two make the
same catalog. It holds exactly their pairs, it has the pairs that it would have if keys might be
defined again or if all pairs were collected at once, and it generates the same. Where keys may be
defined again, neighbouring sources that share no key can always change places. -/
theorem addAll_of_perm {sources others : List Source}
    (perm : (Source.allPairs sources).Perm (Source.allPairs others)) :
    ((∃ merged, (empty .reject).addAll sources = .ok merged) ↔
      ((Source.allPairs sources).map Prod.fst).Nodup) ∧
    ((∃ merged, (empty .reject).addAll others = .ok merged) ↔
      ((Source.allPairs sources).map Prod.fst).Nodup) ∧
    (∀ merged, (empty .reject).addAll sources = .ok merged →
      (empty .reject).addAll others = .ok merged ∧
      (∀ pair, pair ∈ merged.pairs ↔ pair ∈ Source.allPairs sources) ∧
      ∃ collected : Catalog, collected.pairs = merged.pairs ∧
        (empty .overwrite).addAll sources = .ok collected ∧
        (empty .overwrite).addAll others = .ok collected ∧
        ofPairs (Source.allPairs sources) = collected ∧
        ofPairs (Source.allPairs others) = collected ∧
        ∀ options, generate collected options = generate merged options) ∧
    ∀ (before after : List Source) (first second : Source),
      (∀ key ∈ first.pairs.map Prod.fst, key ∉ second.pairs.map Prod.fst) →
      ∃ collected, (empty .overwrite).addAll (before ++ first :: second :: after) = .ok collected ∧
        (empty .overwrite).addAll (before ++ second :: first :: after) = .ok collected := by
  have hkeys : ((Source.allPairs others).map Prod.fst).Nodup ↔
      ((Source.allPairs sources).map Prod.fst).Nodup :=
    ((perm.map Prod.fst).nodup_iff).symm
  refine ⟨exists_addAll_reject, exists_addAll_reject.trans hkeys, fun merged hmerged ↦ ?_,
    fun before after first second disjoint ↦ ?_⟩
  · have distinct := exists_addAll_reject.1 ⟨merged, hmerged⟩
    obtain ⟨-, rfl⟩ := addAll_eq_ok.1 hmerged
    have hothers : (empty .reject).addAll others =
        .ok ((empty .reject).insertAll (Source.allPairs others)) :=
      addAll_of_admits fun _ ↦ (fresh_empty .reject).2 (hkeys.2 distinct)
    have hsame : (empty .reject).insertAll (Source.allPairs others) =
        (empty .reject).insertAll (Source.allPairs sources) :=
      eq_of_pairs (by simp) (pairs_insertAll_of_perm perm distinct).symm
    have hpairs : (ofPairs (Source.allPairs sources)).pairs =
        ((empty .reject).insertAll (Source.allPairs sources)).pairs :=
      pairs_insertAll_of_perm (.refl _) distinct
    have hofPairs := ofPairs_of_perm perm distinct
    refine ⟨by rw [hothers, hsame], fun pair ↦ ?_, ofPairs (Source.allPairs sources), hpairs,
      addAll_overwrite sources, ?_, rfl, hofPairs.symm, generate_congr hpairs⟩
    · have hreverse : ((Source.allPairs sources).reverse.map Prod.fst).Nodup := by
        rwa [List.map_reverse, List.nodup_reverse]
      rw [mem_pairs_iff, get?_insertAll_empty, lookup_eq_some_iff hreverse, List.mem_reverse]
    · rw [addAll_overwrite, hofPairs]
  · refine ⟨_, addAll_overwrite _, ?_⟩
    rw [addAll_overwrite]
    simp only [Source.allPairs, List.flatMap_append, List.flatMap_cons]
    rw [ofPairs_exchange disjoint]

def titleTable : Source := ⟨"Title.strings", [("title", "Title"), ("menu.open", "Open")]⟩

/-- The same table in another order. -/
def shuffledTable : Source := ⟨"Title.strings", [("menu.open", "Open"), ("title", "Title")]⟩

def dayRules : Source := ⟨"Days.stringsdict", [("days_:", "%d days")]⟩

theorem addAll_shuffledTable :
    (Source.allPairs [titleTable, dayRules]).Perm (Source.allPairs [dayRules, shuffledTable]) ∧
    (∀ key ∈ titleTable.pairs.map Prod.fst, key ∉ dayRules.pairs.map Prod.fst) ∧
    ∃ merged collected overwritten : Catalog,
      (empty .reject).addAll [titleTable, dayRules] = .ok merged ∧
      (empty .reject).addAll [dayRules, shuffledTable] = .ok merged ∧
      (∀ pair, pair ∈ merged.pairs ↔ pair ∈ Source.allPairs [titleTable, dayRules]) ∧
      collected.pairs = merged.pairs ∧
      (empty .overwrite).addAll [dayRules, shuffledTable] = .ok collected ∧
      ofPairs (Source.allPairs [dayRules, shuffledTable]) = collected ∧
      (∀ options, generate collected options = generate merged options) ∧
      (empty .overwrite).addAll [shuffledTable, titleTable, dayRules] = .ok overwritten ∧
      (empty .overwrite).addAll [shuffledTable, dayRules, titleTable] = .ok overwritten := by
  have perm : (Source.allPairs [titleTable, dayRules]).Perm
      (Source.allPairs [dayRules, shuffledTable]) := by decide
  have disjoint : ∀ key ∈ titleTable.pairs.map Prod.fst, key ∉ dayRules.pairs.map Prod.fst := by
    decide
  have distinct : ((Source.allPairs [titleTable, dayRules]).map Prod.fst).Nodup := by decide
  obtain ⟨htaken, -, hsame, hexchange⟩ := addAll_of_perm perm
  obtain ⟨merged, hmerged⟩ := htaken.2 distinct
  obtain ⟨hothers, hmem, collected, hpairs, -, hoverwrite, -, hcollected, hgenerate⟩ :=
    hsame merged hmerged
  obtain ⟨overwritten, hleft, hright⟩ := hexchange [shuffledTable] [] titleTable dayRules disjoint
  exact ⟨perm, disjoint, merged, collected, overwritten, hmerged, hothers, hmem, hpairs, hoverwrite,
    hcollected, hgenerate, hleft, hright⟩

end Catalog

end LocalizedAccessors
