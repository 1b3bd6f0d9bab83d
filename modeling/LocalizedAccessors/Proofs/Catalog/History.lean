import LocalizedAccessors.Proofs.Catalog.Merging
import Mathlib.Data.Set.Card

/-!
# Histories of a catalog

Sources are added to a catalog one after another, and one that is refused does not end the history:
what it gave before the refusal stays, and later sources are added to that. A catalog that accepts
redefinitions refuses nothing and has the last value of every key. One that does not takes each
source up to the first key that is known by then, so its values never change.
-/

namespace LocalizedAccessors.Catalog

variable {catalog : Catalog} {pairs front : List (String × String)}

/-- A catalog after a source, and what came of the source. -/
def addSource (catalog : Catalog) (source : Source) : Catalog × Except DuplicateKey Unit :=
  (catalog.add source.origin source.pairs).value

/-- The catalog after some sources were added one after another, whatever came of each. -/
def after (catalog : Catalog) (history : List Source) : Catalog :=
  history.foldl (fun catalog source ↦ (catalog.addSource source).1) catalog

theorem after_append (catalog : Catalog) (history rest : List Source) :
    catalog.after (history ++ rest) = (catalog.after history).after rest :=
  List.foldl_append

/-! ## What is listed -/

/-- The pairs of a catalog tell what it says about each key, every key once and in ascending
order. -/
structure Listed (catalog : Catalog) : Prop where
  ascending : catalog.pairs.Pairwise fun a b ↦ a.1 < b.1
  mem_pairs : ∀ key value, (key, value) ∈ catalog.pairs ↔ catalog.get? key = some value
  size_eq : catalog.size = {key | catalog.get? key ≠ none}.ncard

theorem listed (catalog : Catalog) : catalog.Listed where
  ascending := catalog.ascending
  mem_pairs _ _ := mem_pairs_iff
  size_eq := by
    have hkeys : {key | catalog.get? key ≠ none} =
        ((catalog.pairs.map Prod.fst).toFinset : Set String) := by
      ext key
      rw [List.coe_toFinset, Set.mem_ofPred_eq, Set.mem_ofPred_eq, get?, ne_eq, lookup_eq_none_iff,
        not_not]
    rw [hkeys, Set.ncard_coe_finset, List.toFinset_card_of_nodup catalog.nodup_keys,
      List.length_map, size]

/-! ## Redefinitions that are accepted -/

theorem addSource_overwrite (hpolicy : catalog.policy = .overwrite) (source : Source) :
    catalog.addSource source = (catalog.insertAll source.pairs, .ok ()) :=
  value_addAfter_of_admits source.origin 0 (admits_of_overwrite hpolicy source.pairs)

theorem after_overwrite (hpolicy : catalog.policy = .overwrite) (history : List Source) :
    catalog.after history = catalog.insertAll (Source.allPairs history) := by
  induction history generalizing catalog with
  | nil => rfl
  | cons source rest ih =>
    have hnext : (catalog.insertAll source.pairs).policy = .overwrite := by simpa using hpolicy
    calc
      catalog.after (source :: rest) = (catalog.addSource source).1.after rest := rfl
      _ = (catalog.insertAll source.pairs).after rest := by rw [addSource_overwrite hpolicy]
      _ = (catalog.insertAll source.pairs).insertAll (Source.allPairs rest) := ih hnext
      _ = catalog.insertAll (Source.allPairs (source :: rest)) := by
        rw [Source.allPairs, Source.allPairs, List.flatMap_cons, insertAll_append]

/-! ## Redefinitions that are refused -/

/-- Fresh pairs stand in the catalog beside those that it had. -/
theorem Fresh.mem_insertAll (fresh : catalog.Fresh pairs) {pair : String × String} :
    pair ∈ (catalog.insertAll pairs).pairs ↔ pair ∈ catalog.pairs ∨ pair ∈ pairs := by
  have hreverse : (pairs.reverse.map Prod.fst).Nodup := by
    rw [List.map_reverse, List.nodup_reverse]
    exact fresh.distinct
  rw [mem_pairs_iff, mem_pairs_iff, get?_insertAll]
  by_cases hkey : pair.1 ∈ pairs.map Prod.fst
  · rw [fresh.unknown _ hkey, Option.or_none, lookup_eq_some_iff hreverse, List.mem_reverse]
    simp
  · have hpair : pair ∉ pairs := fun hmem ↦ hkey (List.mem_map_of_mem hmem)
    rw [lookup_reverse_eq_none.2 hkey, Option.none_or, or_iff_left hpair]

/-- A key that the catalog has keeps its value. -/
theorem Fresh.get?_insertAll (fresh : catalog.Fresh pairs) {key value : String}
    (h : catalog.get? key = some value) : (catalog.insertAll pairs).get? key = some value := by
  have hmem : (key, value) ∈ catalog.pairs := mem_pairs_iff.2 h
  exact mem_pairs_iff.1 (fresh.mem_insertAll.2 (.inl hmem))

theorem Fresh.not_knows (fresh : catalog.Fresh pairs) {pair : String × String}
    {back : List (String × String)} (h : pairs = front ++ pair :: back) :
    ¬catalog.Knows front pair.1 :=
  (fresh_iff_not_knows.1 (h ▸ fresh)).2.1

theorem exists_fresh_addSource (hpolicy : catalog.policy = .reject) (source : Source) :
    ∃ front, catalog.Fresh front ∧ (catalog.addSource source).1 = catalog.insertAll front := by
  obtain ⟨front, rest, -, hfresh, -, hvalue⟩ :=
    exists_value_addAfter source.origin 0 hpolicy source.pairs
  exact ⟨front, hfresh, congrArg Prod.fst hvalue⟩

/-- What comes of a source where no key may be defined again: it is taken as a whole, or it is
refused for the first key that the catalog or the source itself has given before, and only the pairs
in front of that one are taken. -/
structure Settles (catalog : Catalog) (source : Source)
    (result : Catalog × Except DuplicateKey Unit) : Prop where
  refused_iff : (∃ duplicate, result.2 = .error duplicate) ↔
    ∃ front pair back, source.pairs = front ++ pair :: back ∧ catalog.Knows front pair.1
  of_ok : result.2 = .ok () →
    ∀ pair, pair ∈ result.1.pairs ↔ pair ∈ catalog.pairs ∨ pair ∈ source.pairs
  of_error : ∀ duplicate, result.2 = .error duplicate → duplicate.origin = source.origin ∧
    ∃ front value back, source.pairs = front ++ (duplicate.key, value) :: back ∧
      catalog.Knows front duplicate.key ∧
      (∀ before pair behind, front = before ++ pair :: behind → ¬catalog.Knows before pair.1) ∧
      ∀ pair, pair ∈ result.1.pairs ↔ pair ∈ catalog.pairs ∨ pair ∈ front

theorem settles_addSource (hpolicy : catalog.policy = .reject) (source : Source) :
    catalog.Settles source (catalog.addSource source) := by
  obtain ⟨front, rest, hsplit, hfresh, hknown, hvalue⟩ :=
    exists_value_addAfter source.origin 0 hpolicy source.pairs
  have hadd : catalog.addSource source = _ := hvalue
  rw [hadd]
  cases rest with
  | nil =>
    rw [List.append_nil] at hsplit
    rw [← hsplit] at hfresh ⊢
    refine ⟨⟨?_, ?_⟩, fun _ _ ↦ hfresh.mem_insertAll, ?_⟩
    · rintro ⟨duplicate, ⟨⟩⟩
    · rintro ⟨before, pair, behind, heq, hpair⟩
      exact absurd hpair (hfresh.not_knows heq)
    · rintro duplicate ⟨⟩
  | cons pair back =>
    have hpair := hknown pair rfl
    refine ⟨⟨fun _ ↦ ⟨front, pair, back, hsplit, hpair⟩, fun _ ↦ ⟨_, rfl⟩⟩, ?_, ?_⟩
    · rintro ⟨⟩
    · rintro duplicate ⟨⟩
      exact ⟨rfl, front, pair.2, back, hsplit, hpair, fun _ _ _ ↦ hfresh.not_knows,
        fun _ ↦ hfresh.mem_insertAll⟩

/-! ## Histories -/

theorem policy_addSource (catalog : Catalog) (source : Source) :
    (catalog.addSource source).1.policy = catalog.policy := by
  cases hpolicy : catalog.policy with
  | overwrite => rw [addSource_overwrite hpolicy, policy_insertAll, hpolicy]
  | reject =>
    obtain ⟨front, -, hmerged⟩ := exists_fresh_addSource hpolicy source
    rw [hmerged, policy_insertAll, hpolicy]

@[simp] theorem policy_after (catalog : Catalog) (history : List Source) :
    (catalog.after history).policy = catalog.policy := by
  induction history generalizing catalog with
  | nil => rfl
  | cons source rest ih => exact (ih _).trans (policy_addSource catalog source)

/-- Where no key may be defined again, a value stays. -/
theorem get?_after (hpolicy : catalog.policy = .reject) (history : List Source)
    {key value : String} (h : catalog.get? key = some value) :
    (catalog.after history).get? key = some value := by
  induction history generalizing catalog with
  | nil => exact h
  | cons source rest ih =>
    obtain ⟨front, hfresh, hmerged⟩ := exists_fresh_addSource hpolicy source
    have hkept : (catalog.addSource source).1.get? key = some value :=
      hmerged ▸ hfresh.get?_insertAll h
    exact ih ((policy_addSource catalog source).trans hpolicy) hkept

/-- Whatever sources a new catalog was given, it lists every key once, in ascending order and with
the value that it says. If keys may be defined again, every source is taken and every key has the
last value that it was given. If not, every source is taken up to the first key that is known by
then, and no value changes for the rest of the history. -/
theorem settled_after (history : List Source) :
    (∀ policy, ((empty policy).after history).Listed) ∧
    (∀ source, (((empty .overwrite).after history).addSource source).2 = .ok ()) ∧
    (∀ key, ((empty .overwrite).after history).get? key =
      (Source.allPairs history).reverse.lookup key) ∧
    (∀ source, ((empty .reject).after history).Settles source
      (((empty .reject).after history).addSource source)) ∧
    ∀ rest key value, ((empty .reject).after history).get? key = some value →
      ((empty .reject).after (history ++ rest)).get? key = some value := by
  refine ⟨fun policy ↦ listed _, fun source ↦ ?_, fun key ↦ ?_, fun source ↦ ?_,
    fun rest key value h ↦ ?_⟩
  · rw [addSource_overwrite (policy_after _ history)]
  · rw [after_overwrite rfl, get?_insertAll_empty]
  · exact settles_addSource (policy_after _ history) source
  · rw [after_append]
    exact get?_after (policy_after _ history) rest h

example : (((empty .reject).after [⟨"a", [("y", "1"), ("y", "2"), ("z", "3")]⟩,
    ⟨"b", [("x", "4"), ("y", "5")]⟩]).pairs) = [("x", "4"), ("y", "1")] := by decide

end LocalizedAccessors.Catalog
