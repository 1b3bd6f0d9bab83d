import LocalizedAccessors.Catalog.Format
import LocalizedAccessors.Proofs.Catalog.Merging
import LocalizedAccessors.Proofs.Placeholder.Flattening

/-!
# Line breaks in catalogs

Where the line breaks in the values of a catalog come from, whatever was read into it and whether
reading succeeded. A strings table leaves them out of its values. Plural rules are flattened as they
are written: a value has the line breaks that its format has outside the references that are
replaced, and those of the types that are put in their place.
-/

namespace LocalizedAccessors

/-- Whether characters have neither a line feed nor a carriage return among them. -/
def Text.Unbroken (cs : List Char) : Prop := ∀ c ∈ cs, c ≠ '\n' ∧ c ≠ '\r'

namespace Text.Unbroken

variable {cs others : List Char}

instance (cs : List Char) : Decidable (Unbroken cs) := List.decidableBAll _ cs

theorem append_iff : Unbroken (cs ++ others) ↔ Unbroken cs ∧ Unbroken others :=
  List.forall_mem_append

theorem cons_iff {c : Char} : Unbroken (c :: cs) ↔ (c ≠ '\n' ∧ c ≠ '\r') ∧ Unbroken cs :=
  List.forall_mem_cons

theorem flatMap_iff {α : Type} {items : List α} {written : α → List Char} :
    Unbroken (items.flatMap written) ↔ ∀ item ∈ items, Unbroken (written item) := by
  simp only [Unbroken, List.mem_flatMap]
  exact ⟨fun h item hitem c hc ↦ h c ⟨item, hitem, hc⟩,
    fun h c ⟨item, hitem, hc⟩ ↦ h item hitem c hc⟩

end Text.Unbroken

/-! ## Strings tables -/

namespace StringsTable

/-- Whether the value of a statement, if it has one, is without line breaks. -/
def Statement.Unbroken : Statement → Prop
  | pair _ value => Text.Unbroken value
  | malformed => True

theorem unbroken_valueOf (key cs : List Char) : (valueOf key cs).1.Unbroken := by
  unfold valueOf
  split
  · trivial
  · intro c hc
    simpa [isLineBreak] using (List.mem_filter.1 hc).2

theorem unbroken_nextStatement? {cs rest : List Char} {statement : Statement}
    (h : nextStatement? cs = some (statement, rest)) : statement.Unbroken := by
  unfold nextStatement? at h
  split at h
  · simp at h
  · split at h
    · obtain ⟨rfl, -⟩ := Prod.mk.inj (Option.some.inj h)
      trivial
    · next key _ _ =>
      split at h
      · next after _ =>
        have hvalue := unbroken_valueOf key after
        rwa [Option.some.inj h] at hvalue
      · obtain ⟨rfl, -⟩ := Prod.mk.inj (Option.some.inj h)
        trivial

theorem unbroken_statements (cs : List Char) : ∀ statement ∈ statements cs, statement.Unbroken := by
  fun_induction statements cs with
  | case1 cs hnone => simp
  | case2 cs statement rest hnext ih =>
    exact List.forall_mem_cons.2 ⟨unbroken_nextStatement? hnext, ih⟩

theorem unbroken_pairs (text : String) : ∀ pair ∈ pairs text, Text.Unbroken pair.value.toList := by
  intro pair hpair
  obtain ⟨statement, hstatement, hread⟩ := List.mem_filterMap.1 hpair
  have hunbroken := unbroken_statements _ statement hstatement
  cases statement with
  | malformed => simp [Statement.pair?] at hread
  | pair key value =>
    obtain rfl := Option.some.inj hread
    rwa [String.toList_ofList]

end StringsTable

/-! ## Plural rules -/

namespace PluralRule

/-- A part of a format string: a character that stays, or a reference. -/
inductive Part where
  | character (c : Char)
  | reference (reference : Reference)

/-- The parts of a format string in the order they stand. -/
def parts : List Char → List Part
  | [] => []
  | '%' :: cs =>
    match _h : reference? cs with
    | some (reference, rest) => .reference reference :: parts rest
    | none => .character '%' :: parts cs
  | c :: cs => .character c :: parts cs
termination_by cs => cs.length
decreasing_by
  · exact Nat.lt_succ_of_lt (reference?_length_lt _h)
  · exact Nat.lt_succ_self _
  · exact Nat.lt_succ_self _

namespace Part

/-- What a part becomes in the flattened format. -/
def substituted (rule : PropertyList) : Part → List Char
  | character c => [c]
  | reference target => PluralRule.substituted rule target

/-- Whether a part brings no line break with it: a character that is none, a reference whose type
has none, or a reference without a type whose name has none. -/
def Unbroken (rule : PropertyList) : Part → Prop
  | character c => c ≠ '\n' ∧ c ≠ '\r'
  | reference target =>
    match valueType? rule (String.ofList target.name) with
    | some type => Text.Unbroken type.toList
    | none => Text.Unbroken target.name

end Part

theorem flattenFormat_eq (rule : PropertyList) (cs : List Char) :
    flattenFormat rule cs = (parts cs).flatMap (Part.substituted rule) := by
  fun_induction parts cs with
  | case1 => simp [flattenFormat]
  | case2 cs reference rest hreference ih =>
    rw [flattenFormat_reference hreference, ih, List.flatMap_cons]
    rfl
  | case3 cs hnone ih =>
    rw [flattenFormat_percent hnone, ih]
    rfl
  | case4 c cs hc ih =>
    rw [flattenFormat, ih]
    · rfl
    · exact hc

theorem unbroken_splitPosition (cs : List Char) : Text.Unbroken (splitPosition cs).1 := by
  have hmarks : Text.isDecimalDigit '\n' = false ∧ Text.isDecimalDigit '\r' = false := by decide
  intro c hc
  rcases of_mem_splitPosition hc with hdigit | rfl
  · constructor
    · rintro rfl
      exact Bool.noConfusion (hdigit.symm.trans hmarks.1)
    · rintro rfl
      exact Bool.noConfusion (hdigit.symm.trans hmarks.2)
  · decide

theorem position_of_reference? {cs rest : List Char} {reference : Reference}
    (h : reference? cs = some (reference, rest)) :
    reference.position = (splitPosition cs).1 := by
  rw [reference?] at h
  split at h
  · split at h
    · simp only [Option.some.injEq, Prod.mk.injEq] at h
      rw [← h.1]
    · simp at h
  · simp at h

/-- The positions of references have no line breaks. -/
theorem unbroken_position_of_mem_parts {cs : List Char} {reference : Reference}
    (h : .reference reference ∈ parts cs) : Text.Unbroken reference.position := by
  fun_induction parts cs with
  | case1 => simp at h
  | case2 cs other rest hother ih =>
    rcases List.mem_cons.1 h with heq | hrest
    · obtain rfl := Part.reference.inj heq
      exact position_of_reference? hother ▸ unbroken_splitPosition cs
    · exact ih hrest
  | case3 cs _ ih => exact ih (by simpa using h)
  | case4 c cs _ ih => exact ih (by simpa using h)

theorem unbroken_substituted_iff {rule : PropertyList} {cs : List Char} {part : Part}
    (h : part ∈ parts cs) : Text.Unbroken (part.substituted rule) ↔ part.Unbroken rule := by
  cases part with
  | character c => simp [Part.substituted, Part.Unbroken, Text.Unbroken]
  | reference target =>
    have hposition := unbroken_position_of_mem_parts h
    have hmarks : Text.Unbroken ['#', '@'] ∧ Text.Unbroken ['@'] := by decide
    have hpercent : '%' ≠ '\n' ∧ '%' ≠ '\r' := by decide
    rw [Part.substituted, Part.Unbroken, substituted]
    cases valueType? rule (String.ofList target.name) with
    | some type =>
      change Text.Unbroken ('%' :: (target.position ++ type.toList)) ↔ _
      rw [Text.Unbroken.cons_iff, Text.Unbroken.append_iff, and_iff_right hpercent,
        and_iff_right hposition]
    | none =>
      change Text.Unbroken ('%' :: (target.position ++ ['#', '@'] ++ target.name ++ ['@'])) ↔ _
      simp only [Text.Unbroken.cons_iff, Text.Unbroken.append_iff, hpercent, hposition, hmarks,
        true_and, and_true, ne_eq, not_false_eq_true]

/-- Whether no part of a rule's format brings a line break with it. -/
def Unbroken (rule : PropertyList) : Prop :=
  ∀ format, rule.get? formatKey = some (.string format) →
    ∀ part ∈ parts format.toList, part.Unbroken rule

theorem flatten?_eq_some_iff {rule : PropertyList} {flattened : String} :
    flatten? rule = some flattened ↔ ∃ format, rule.get? formatKey = some (.string format) ∧
      String.ofList (flattenFormat rule format.toList) = flattened := by
  simp only [flatten?, Option.bind_eq_bind, Option.bind_eq_some_iff]
  constructor
  · rintro ⟨entry, hentry, format, hformat, hflattened⟩
    cases entry with
    | string text =>
      obtain rfl : text = format := by simpa [PropertyList.asString?] using hformat
      exact ⟨text, hentry, Option.some.inj hflattened⟩
    | dict | array | other => simp [PropertyList.asString?] at hformat
  · rintro ⟨format, hformat, rfl⟩
    exact ⟨.string format, hformat, format, rfl, rfl⟩

theorem unbroken_flatten?_iff {rule : PropertyList} {flattened : String}
    (h : flatten? rule = some flattened) : Text.Unbroken flattened.toList ↔ Unbroken rule := by
  obtain ⟨format, hformat, rfl⟩ := flatten?_eq_some_iff.1 h
  have hparts : (∀ part ∈ parts format.toList, Text.Unbroken (part.substituted rule)) ↔
      ∀ part ∈ parts format.toList, part.Unbroken rule :=
    forall₂_congr fun _ ↦ unbroken_substituted_iff
  rw [String.toList_ofList, flattenFormat_eq, Text.Unbroken.flatMap_iff, hparts, Unbroken]
  simp [hformat]

end PluralRule

/-! ## Catalogs -/

theorem mem_flattenedRules {rules : List (String × PropertyList)} {pair : String × String}
    (h : pair ∈ (flattenedRules rules).value) :
    ∃ rule, (pair.1, rule) ∈ rules ∧ PluralRule.flatten? rule = some pair.2 := by
  fun_induction flattenedRules rules with
  | case1 => simp at h
  | case2 key rule rest format hformat ih =>
    rw [Reported.value_bind, Reported.value_pure] at h
    rcases List.mem_cons.1 h with rfl | hrest
    · exact ⟨rule, List.mem_cons_self, hformat⟩
    · obtain ⟨source, hsource, hflatten⟩ := ih hrest
      exact ⟨source, List.mem_cons_of_mem _ hsource, hflatten⟩
  | case3 key rule rest hnone ih =>
    obtain ⟨source, hsource, hflatten⟩ := ih h
    exact ⟨source, List.mem_cons_of_mem _ hsource, hflatten⟩

namespace SourceFormat

variable {bytes : List UInt8} {pairs : List (String × String)}

theorem unbroken_of_ofFile (h : (ofTable (StringsTable.ofFile bytes)).value = .ok pairs) :
    ∀ pair ∈ pairs, Text.Unbroken pair.2.toList := by
  rw [StringsTable.ofFile] at h
  cases htext : StringsTable.fileText bytes with
  | error fault =>
    rw [htext] at h
    cases h
  | ok text =>
    rw [htext] at h
    obtain rfl := Except.ok.inj h
    exact List.forall_mem_map.2 (StringsTable.unbroken_pairs text)

theorem of_ofPropertyList (h : (ofPropertyList bytes).value = .ok pairs) :
    ∃ rules, PropertyList.rootPairs bytes = .ok rules ∧ (flattenedRules rules).value = pairs := by
  rw [ofPropertyList] at h
  split at h
  · next rules hrules => exact ⟨rules, hrules, Except.ok.inj h⟩
  · cases h

end SourceFormat

/-- A file that a catalog is given to read, in the state that the files have then. -/
structure Reading where
  files : FileSystem
  path : String
  format : SourceFormat

namespace Reading

/-- What the file is read as. -/
def outcome (reading : Reading) : Except SourceFailure (List (String × String)) :=
  (reading.format.readPairs reading.files reading.path).value

/-- Whether the file is a property list with this rule for this key. -/
def Lists (reading : Reading) (key : String) (rule : PropertyList) : Prop :=
  reading.format = .stringsdict ∧ ∃ bytes rules, reading.files.read reading.path = .ok bytes ∧
    PropertyList.rootPairs bytes = .ok rules ∧ (key, rule) ∈ rules

/-- Whether a value is without line breaks or was flattened from a rule of the file. -/
def AccountsFor (reading : Reading) (pair : String × String) : Prop :=
  Text.Unbroken pair.2.toList ∨
    ∃ rule, reading.Lists pair.1 rule ∧ PluralRule.flatten? rule = some pair.2

theorem accountsFor_of_outcome {reading : Reading} {pairs : List (String × String)}
    (h : reading.outcome = .ok pairs) : ∀ pair ∈ pairs, reading.AccountsFor pair := by
  obtain ⟨files, path, format⟩ := reading
  rw [outcome, SourceFormat.readPairs] at h
  split at h
  · cases h
  · next bytes hbytes =>
    intro pair hpair
    cases format with
    | strings => exact .inl (SourceFormat.unbroken_of_ofFile h pair hpair)
    | stringsdict =>
      obtain ⟨rules, hrules, rfl⟩ := SourceFormat.of_ofPropertyList h
      obtain ⟨rule, hrule, hflatten⟩ := mem_flattenedRules hpair
      exact .inr ⟨rule, ⟨rfl, bytes, rules, hbytes, hrules, hrule⟩, hflatten⟩

end Reading

namespace Catalog

/-- The catalog after a file was read, even if not all of it could be added. -/
def readFile (catalog : Catalog) (reading : Reading) : Catalog :=
  (catalog.addFile reading.files reading.path reading.format).value.1

/-- The catalog after files were read one after another, whatever came of each. -/
def readFiles (catalog : Catalog) (readings : List Reading) : Catalog :=
  readings.foldl readFile catalog

theorem mem_insert {catalog : Catalog} {key value : String} {pair : String × String}
    (h : pair ∈ (catalog.insert key value).pairs) : pair ∈ catalog.pairs ∨ pair = (key, value) := by
  rw [mem_pairs_iff, get?_insert] at h
  split at h
  · next heq => exact .inr (Prod.ext heq (Option.some.inj h).symm)
  · exact .inl (mem_pairs_iff.2 h)

theorem mem_addAfter {origin : String} {added : Nat} {catalog : Catalog}
    {pairs : List (String × String)} {pair : String × String}
    (h : pair ∈ (catalog.addAfter origin added pairs).value.1.pairs) :
    pair ∈ catalog.pairs ∨ pair ∈ pairs := by
  induction pairs generalizing catalog added with
  | nil => exact .inl h
  | cons first rest ih =>
    -- Either way the first pair goes in, if the addition does not end here.
    have hinserted : pair ∈ (catalog.insert first.1 first.2).pairs ∨ pair ∈ rest →
        pair ∈ catalog.pairs ∨ pair ∈ first :: rest := by
      rintro (hkept | hrest)
      · rcases mem_insert hkept with hold | rfl
        · exact .inl hold
        · exact .inr List.mem_cons_self
      · exact .inr (List.mem_cons_of_mem _ hrest)
    rw [addAfter] at h
    split at h
    · exact hinserted (ih h)
    · split at h
      · exact .inl h
      · exact hinserted (ih h)

/-- Reading a file leaves a pair as it was, or the file accounts for it. -/
theorem mem_readFile {catalog : Catalog} {reading : Reading} {pair : String × String}
    (h : pair ∈ (catalog.readFile reading).pairs) :
    pair ∈ catalog.pairs ∨ reading.AccountsFor pair := by
  have hread : (catalog.readFile reading).pairs =
      (catalog.addRead reading.path reading.outcome).value.1.pairs := rfl
  rw [hread] at h
  cases houtcome : reading.outcome with
  | error failure =>
    rw [houtcome] at h
    exact .inl h
  | ok pairs =>
    rw [houtcome] at h
    exact (mem_addAfter h).imp_right (Reading.accountsFor_of_outcome houtcome pair)

theorem mem_readFiles {catalog : Catalog} {readings : List Reading} {pair : String × String}
    (h : pair ∈ (catalog.readFiles readings).pairs) :
    pair ∈ catalog.pairs ∨ ∃ reading ∈ readings, reading.AccountsFor pair := by
  induction readings generalizing catalog with
  | nil => exact .inl h
  | cons reading rest ih =>
    rcases ih h with hkept | ⟨later, hlater, haccounts⟩
    · exact (mem_readFile hkept).imp_right fun haccounts ↦ ⟨reading, List.mem_cons_self, haccounts⟩
    · exact .inr ⟨later, List.mem_cons_of_mem _ hlater, haccounts⟩

theorem unbroken_readFiles_of_strings (policy : DuplicatePolicy) {readings : List Reading}
    (h : ∀ reading ∈ readings, reading.format = .strings) :
    ∀ pair ∈ ((empty policy).readFiles readings).pairs, Text.Unbroken pair.2.toList := by
  intro pair hmem
  rcases mem_readFiles hmem with hempty | ⟨reading, hreading, hunbroken | ⟨rule, hlists, -⟩⟩
  · simp [empty] at hempty
  · exact hunbroken
  · cases (h reading hreading).symm.trans hlists.1

/-- Whatever files are read into an empty catalog, and whatever comes of each, no value has a line
break if and only if no rule that a value in the catalog was flattened from brings one with it. -/
theorem unbroken_readFiles_iff (policy : DuplicatePolicy) (readings : List Reading) :
    (∀ pair ∈ ((empty policy).readFiles readings).pairs, Text.Unbroken pair.2.toList) ↔
      ∀ reading ∈ readings, ∀ key rule value, reading.Lists key rule →
        PluralRule.flatten? rule = some value →
        (key, value) ∈ ((empty policy).readFiles readings).pairs → PluralRule.Unbroken rule := by
  constructor
  · intro hvalues reading _ key rule value _ hflatten hmem
    exact (PluralRule.unbroken_flatten?_iff hflatten).1 (hvalues _ hmem)
  · intro hrules pair hmem
    rcases mem_readFiles hmem with hempty |
      ⟨reading, hreading, hunbroken | ⟨rule, hlists, hflatten⟩⟩
    · simp [empty] at hempty
    · exact hunbroken
    · exact (PluralRule.unbroken_flatten?_iff hflatten).2
        (hrules reading hreading pair.1 rule pair.2 hlists hflatten hmem)

/-- A property list of one rule, whose format has a line break. -/
def brokenRule : Reading where
  files :=
    let content := Markup.ascii ("<dict><key>a</key><dict><key>NSStringLocalizedFormatKey</key>" ++
      "<string>x\ny</string></dict></dict>")
    ⟨[], [(["a.stringsdict"], .file content {})]⟩
  path := "a.stringsdict"
  format := .stringsdict

theorem not_unbroken_readFiles : ¬∀ (policy : DuplicatePolicy) (readings : List Reading),
    ∀ pair ∈ ((empty policy).readFiles readings).pairs, Text.Unbroken pair.2.toList := by
  intro h
  have hbroken : ("a", "x\ny") ∈ ((empty .reject).readFiles [brokenRule]).pairs := by
    decide +kernel
  exact absurd (h .reject [brokenRule] _ hbroken) (by decide)

end Catalog

end LocalizedAccessors
