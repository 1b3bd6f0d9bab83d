import LocalizedAccessors.Proofs.Command.Precedence
import LocalizedAccessors.Proofs.Text.Decimal

/-!
# Inputs of a build script

An environment gives the same inputs as a list of paths if it counts them and names each of them by
its number. The numbers are told apart by their digits, and none of them is the word that ends the
name of the variable that counts. A variable that is missing is found before any path is looked at,
the one with the smallest number first.
-/

namespace LocalizedAccessors

/-! ## The count -/

/-- A number as it may be written to count inputs: decimal digits, with blanks around them and a plus
sign and zeros before them if need be. -/
structure CountText where
  before : List Char
  signed : Bool
  zeros : Nat
  number : Nat
  behind : List Char
  before_blank : ∀ c ∈ before, Text.isBlank c = true
  behind_blank : ∀ c ∈ behind, Text.isBlank c = true
  number_lt : number < UInt64.size

namespace CountText

/-- The text between the blanks. -/
def body (count : CountText) : List Char :=
  (if count.signed then ['+'] else []) ++ Text.padded count.zeros count.number

def written (count : CountText) : String :=
  String.ofList (count.before ++ (count.body ++ count.behind))

theorem isBlank_of_mem_body {count : CountText} {c : Char} (h : c ∈ count.body) :
    Text.isBlank c = false := by
  rcases List.mem_append.1 h with hsign | hdigit
  · split at hsign
    · rw [List.mem_singleton.1 hsign]
      decide
    · exact absurd hsign List.not_mem_nil
  · exact Text.isBlank_of_isDigit (Text.isDigit_of_mem_padded hdigit)

theorem trim_written (count : CountText) : Text.trim count.written.toList = count.body := by
  rw [written, String.toList_ofList]
  exact Text.trim_append count.before_blank (fun _ ↦ isBlank_of_mem_body) count.behind_blank

end CountText

namespace InputFiles

variable {text : String} {digits : List Char} {number : Nat}

/-- A trimmed text is read from behind its sign on. -/
theorem parseCount?_of_trim {signed : Bool}
    (htrim : Text.trim text.toList = (if signed then ['+'] else []) ++ digits)
    (hsigned : signed = false → digits.head? ≠ some '+') :
    parseCount? text = some number ↔ digits ≠ [] ∧ (∀ c ∈ digits, c.isDigit = true) ∧
      Text.numberFrom 10 0 digits < UInt64.size ∧ Text.numberFrom 10 0 digits = number := by
  have hread : parseCount? text = if !digits.isEmpty && digits.all Char.isDigit &&
      Text.numberFrom 10 0 digits < UInt64.size then some (Text.numberFrom 10 0 digits) else none := by
    cases signed with
    | true =>
      rw [parseCount?, htrim]
      rfl
    | false =>
      rw [parseCount?, htrim]
      cases digits with
      | nil => rfl
      | cons c cs =>
        have hc : c ≠ '+' := by simpa using hsigned rfl
        simp [hc]
  rw [hread, Option.ite_none_right_eq_some]
  simp [and_assoc]

theorem exists_eq_sign_append (cs : List Char) : ∃ (signed : Bool) (digits : List Char),
    cs = (if signed then ['+'] else []) ++ digits ∧
      (signed = false → digits.head? ≠ some '+') := by
  by_cases h : cs.head? = some '+'
  · obtain ⟨rest, rfl⟩ := List.head?_eq_some_iff.1 h
    exact ⟨true, rest, rfl, by simp⟩
  · exact ⟨false, cs, rfl, fun _ ↦ h⟩

/-- The counts that are understood are the numbers below 2^64 as they may be written, and no other
texts. -/
theorem parseCount?_eq_some_iff :
    parseCount? text = some number ↔
      ∃ count : CountText, count.number = number ∧ count.written = text := by
  constructor
  · intro h
    obtain ⟨before, behind, htext, hbefore, hbehind⟩ := Text.exists_eq_append_trim text.toList
    obtain ⟨signed, digits, htrim, hsigned⟩ := exists_eq_sign_append (Text.trim text.toList)
    obtain ⟨hne, hdigit, hlt, rfl⟩ := (parseCount?_of_trim htrim hsigned).1 h
    obtain ⟨zeros, value, rfl⟩ := Text.exists_eq_padded hne hdigit
    rw [Text.numberFrom_padded] at hlt ⊢
    refine ⟨⟨before, signed, zeros, value, behind, hbefore, hbehind, hlt⟩, rfl, ?_⟩
    rw [CountText.written, CountText.body, ← htrim, ← htext, String.ofList_toList]
  · rintro ⟨count, rfl, rfl⟩
    have hsigned : count.signed = false →
        (Text.padded count.zeros count.number).head? ≠ some '+' := by
      intro _ hplus
      have hdigit : '+'.isDigit = true := Text.isDigit_of_mem_padded (List.mem_of_head? hplus)
      exact absurd hdigit (by decide)
    rw [parseCount?_of_trim count.trim_written hsigned, Text.numberFrom_padded]
    exact ⟨Text.padded_ne_nil _ _, fun _ ↦ Text.isDigit_of_mem_padded, count.number_lt, rfl⟩

/-! ## The variables -/

theorem fileVariable_injective : Function.Injective fileVariable := by
  intro first second h
  have hdigits : toString first = toString second := (String.append_right_inj _).1 h
  rw [Nat.toString_eq_ofList_toDigits, Nat.toString_eq_ofList_toDigits, String.ofList_inj] at hdigits
  exact Text.toDigits_injective hdigits

/-- What follows the common front in the name of the count is a word, and a letter is no digit. -/
theorem fileVariable_ne_countVariable (index : Nat) : fileVariable index ≠ countVariable := by
  intro h
  have hfront : countVariable = "SCRIPT_INPUT_FILE_" ++ "COUNT" := by decide +kernel
  have hword : toString index = "COUNT" := (String.append_right_inj _).1 (h.trans hfront)
  have hletter : 'C' ∈ Nat.toDigits 10 index := by
    rw [← Nat.toList_repr, ← Nat.toString_eq_repr, hword]
    decide
  exact absurd (Nat.isDigit_of_mem_toDigits (by decide) le_rfl hletter) (by decide)

end InputFiles

/-! ## Environments that name inputs -/

namespace Environment

open InputFiles (countVariable fileVariable)

variable {environment : Environment} {paths : List String} {count : CountText}

/-- The environment says how many inputs there are. -/
def Counts (environment : Environment) (number : Nat) : Prop :=
  ∃ count : CountText, count.number = number ∧ environment countVariable = some count.written

/-- The environment counts some paths and names each of them by its number. -/
structure Names (environment : Environment) (paths : List String) : Prop where
  counts : environment.Counts paths.length
  names : ∀ index < paths.length, environment (fileVariable index) = paths[index]?

/-- The environment with the variables for some paths set. -/
def withInputs (environment : Environment) (count : CountText) (paths : List String) :
    Environment := fun name ↦
  if name = countVariable then some count.written
  else
    match (List.range paths.length).find? (fileVariable · = name) with
    | some index => paths[index]?
    | none => environment name

/-- Every list of paths can be named, since no variable is used twice. -/
theorem names_withInputs (h : count.number = paths.length) :
    (environment.withInputs count paths).Names paths where
  counts := ⟨count, h, if_pos rfl⟩
  names index hindex := by
    have hfind : (List.range paths.length).find? (fileVariable · = fileVariable index) =
        some index := by
      rw [List.find?_range_eq_some]
      refine ⟨by simp, List.mem_range.2 hindex, fun other hother ↦ ?_⟩
      simpa using InputFiles.fileVariable_injective.ne hother.ne
    rw [withInputs, if_neg (InputFiles.fileVariable_ne_countVariable index), hfind]

/-- All else in the environment stays as it is. -/
theorem withInputs_of_ne {name : String} (hcount : name ≠ countVariable)
    (hfile : ∀ index < paths.length, name ≠ fileVariable index) :
    environment.withInputs count paths name = environment name := by
  have hfind : (List.range paths.length).find? (fileVariable · = name) = none := by
    rw [List.find?_range_eq_none]
    intro index hindex
    simpa using (hfile index hindex).symm
  rw [withInputs, if_neg hcount, hfind]

end Environment

namespace InputFiles

variable {environment : Environment} {paths : List String} {count number index : Nat}

/-! ## The files that are named -/

theorem namedFiles_succ_of_none (h : environment (fileVariable index) = none) :
    namedFiles environment (count + 1) index = .error (.missingVariable (fileVariable index)) := by
  rw [namedFiles, h]

theorem namedFiles_succ_of_some {path : String}
    (h : environment (fileVariable index) = some path) :
    namedFiles environment (count + 1) index =
      (namedFiles environment count (index + 1)).map (path :: ·) := by
  rw [namedFiles, h]

/-- The paths are in the order of their numbers. -/
theorem namedFiles_eq_ok_iff :
    namedFiles environment count index = .ok paths ↔
      paths.length = count ∧
        ∀ offset < count, environment (fileVariable (index + offset)) = paths[offset]? := by
  induction count generalizing index paths with
  | zero => simp [namedFiles, eq_comm]
  | succ count ih =>
    rw [Nat.forall_lt_succ_left, Nat.add_zero]
    cases hfirst : environment (fileVariable index) with
    | none =>
      rw [namedFiles_succ_of_none hfirst]
      cases paths <;> simp
    | some path =>
      have hcons {named : Except InputListFault (List String)} :
          named.map (path :: ·) = .ok paths ↔
            ∃ rest, path :: rest = paths ∧ named = .ok rest := by
        cases named <;> simp [Except.map]
      rw [namedFiles_succ_of_some hfirst, hcons]
      cases paths with
      | nil => simp
      | cons first rest =>
        simp only [List.cons.injEq, List.length_cons, Nat.add_right_cancel_iff,
          List.getElem?_cons_zero, List.getElem?_cons_succ, Option.some.injEq, existsAndEq]
        simp only [ih, Nat.add_assoc, Nat.add_comm 1, and_true]
        exact and_left_comm

/-- The first variable that is missing is named. -/
theorem namedFiles_of_missing {least : Nat} (hle : index ≤ least) (hlt : least < index + count)
    (hmissing : environment (fileVariable least) = none)
    (hset : ∀ other, index ≤ other → other < least → environment (fileVariable other) ≠ none) :
    namedFiles environment count index = .error (.missingVariable (fileVariable least)) := by
  induction count generalizing index with
  | zero => omega
  | succ count ih =>
    rcases hle.eq_or_lt with rfl | hbefore
    · exact namedFiles_succ_of_none hmissing
    · obtain ⟨path, hpath⟩ := Option.ne_none_iff_exists'.1 (hset index le_rfl hbefore)
      rw [namedFiles_succ_of_some hpath,
        ih hbefore (by omega) fun other hother ↦ hset other (Nat.le_of_succ_le hother)]
      rfl

theorem ofEnvironment_of_counts (h : environment.Counts number) :
    ofEnvironment environment = namedFiles environment number 0 := by
  obtain ⟨count, hnumber, hcount⟩ := h
  rw [ofEnvironment, hcount]
  simp only [parseCount?_eq_some_iff.2 ⟨count, hnumber, rfl⟩]

theorem ofEnvironment_of_names (h : environment.Names paths) :
    ofEnvironment environment = .ok paths := by
  rw [ofEnvironment_of_counts h.counts, namedFiles_eq_ok_iff]
  exact ⟨rfl, by simpa using h.names⟩

/-- The inputs of an environment are the paths that it names, and if it does not count them, there
are none. -/
theorem ofEnvironment_eq_ok_iff :
    ofEnvironment environment = .ok paths ↔
      environment.Names paths ∨ environment countVariable = none ∧ paths = [] := by
  constructor
  · intro h
    cases hcount : environment countVariable with
    | none =>
      rw [ofEnvironment, hcount] at h
      exact .inr ⟨rfl, (Except.ok.inj h).symm⟩
    | some text =>
      rw [ofEnvironment, hcount] at h
      cases hparse : parseCount? text with
      | none => simp [hparse] at h
      | some number =>
        simp only [hparse] at h
        obtain ⟨rfl, hnames⟩ := namedFiles_eq_ok_iff.1 h
        obtain ⟨count, hnumber, rfl⟩ := parseCount?_eq_some_iff.1 hparse
        exact .inl ⟨⟨count, hnumber, hcount⟩, by simpa using hnames⟩
  · rintro (h | ⟨hcount, rfl⟩)
    · exact ofEnvironment_of_names h
    · rw [ofEnvironment, hcount]

/-! ## Both ways to give inputs -/

theorem classify_of_unsupported {path : String}
    (h : paths.find? (fun path ↦ SourceFormat.ofPath? path = none) = some path) :
    classify paths = .error (.unsupported path) := by
  induction paths with
  | nil => cases h
  | cons first rest ih =>
    cases hformat : SourceFormat.ofPath? first with
    | none =>
      rw [List.find?_cons_of_pos (by simpa using hformat)] at h
      rw [classify, hformat, Option.some.inj h]
    | some format =>
      rw [List.find?_cons_of_neg (by simp [hformat])] at h
      rw [classify, hformat, ih h]
      rfl

/-- Files are sorted by their formats unless the format of one of them is unknown; then the first
such file is to blame. -/
theorem classify_eq (paths : List String) :
    classify paths =
      match paths.find? fun path ↦ SourceFormat.ofPath? path = none with
      | some path => .error (.unsupported path)
      | none => .ok
        { strings := paths.filter fun path ↦ SourceFormat.ofPath? path = some .strings
          stringsdict := paths.filter fun path ↦ SourceFormat.ofPath? path = some .stringsdict } := by
  split
  · next path hfirst => exact classify_of_unsupported hfirst
  · next hnone =>
    exact classify_of_supported fun path hpath ↦ by
      simpa [Option.isSome_iff_ne_none] using List.find?_eq_none.1 hnone path hpath

theorem resolve_given {given : List String} (h : given ≠ []) (environment : Environment) :
    resolve given environment = classify given := by
  rw [resolve, if_neg h]
  rfl

theorem resolve_nil (environment : Environment) :
    resolve [] environment = ofEnvironment environment >>= classify := rfl

/-- An environment that counts some paths and names them by their numbers gives the same inputs as
these paths, and blames the same path if the formats of some are unknown. If it does not name all
that it counts, the smallest number without a variable is to blame, whatever the other paths are.
If paths are given, the environment does not matter. -/
theorem resolve_environment (environment : Environment) :
    (Function.Injective fileVariable ∧ ∀ index, fileVariable index ≠ countVariable) ∧
    (∀ paths, environment.Names paths →
      resolve [] environment = classify paths ∧
      classify paths =
        match paths.find? fun path ↦ SourceFormat.ofPath? path = none with
        | some path => .error (.unsupported path)
        | none => .ok
          { strings := paths.filter fun path ↦ SourceFormat.ofPath? path = some .strings
            stringsdict := paths.filter fun path ↦ SourceFormat.ofPath? path = some .stringsdict }) ∧
    (∀ number index, environment.Counts number → index < number →
      environment (fileVariable index) = none →
      ∃ least ≤ index, environment (fileVariable least) = none ∧
        (∀ other < least, environment (fileVariable other) ≠ none) ∧
        resolve [] environment = .error (.missingVariable (fileVariable least))) ∧
    ∀ given ≠ [], resolve given environment = classify given := by
  refine ⟨⟨fileVariable_injective, fileVariable_ne_countVariable⟩,
    fun paths hnames ↦ ⟨?_, classify_eq paths⟩, fun number index hcounts hlt hmissing ↦ ?_,
    fun given hgiven ↦ resolve_given hgiven environment⟩
  · rw [resolve_nil, ofEnvironment_of_names hnames]
    rfl
  · have hexists : ∃ index, environment (fileVariable index) = none := ⟨index, hmissing⟩
    have hle : Nat.find hexists ≤ index := Nat.find_min' hexists hmissing
    have hset (other : Nat) (hother : other < Nat.find hexists) :
        environment (fileVariable other) ≠ none := Nat.find_min hexists hother
    refine ⟨Nat.find hexists, hle, Nat.find_spec hexists, hset, ?_⟩
    rw [resolve_nil, ofEnvironment_of_counts hcounts,
      namedFiles_of_missing (Nat.zero_le _) (by omega) (Nat.find_spec hexists)
        fun other _ ↦ hset other]
    rfl

/-- Two inputs, counted by `" +02"` and a line break. -/
def paddedCount : CountText where
  before := [' ']
  signed := true
  zeros := 1
  number := 2
  behind := ['\n']
  before_blank := List.forall_mem_singleton.2 (by decide)
  behind_blank := List.forall_mem_singleton.2 (by decide)
  number_lt := by decide

/-- An environment that counts two inputs and names only the second. -/
def gappedEnvironment : Environment := fun name ↦
  if name = countVariable then some paddedCount.written
  else if name = fileVariable 1 then some "a.strings" else none

theorem resolve_environment_paddedCount :
    (∀ environment : Environment, resolve []
      (environment.withInputs paddedCount ["b.stringsdict", "a.strings"]) =
        .ok { strings := ["a.strings"], stringsdict := ["b.stringsdict"] }) ∧
    resolve [] gappedEnvironment = .error (.missingVariable (fileVariable 0)) ∧
    resolve ["a.strings"] gappedEnvironment = .ok { strings := ["a.strings"], stringsdict := [] } := by
  refine ⟨fun environment ↦ ?_, ?_, ?_⟩
  · obtain ⟨hresolve, hclassify⟩ := (resolve_environment
      (environment.withInputs paddedCount ["b.stringsdict", "a.strings"])).2.1 _
        (Environment.names_withInputs rfl)
    rw [hresolve]
    decide +kernel
  · obtain ⟨least, hle, -, -, hresolve⟩ := (resolve_environment gappedEnvironment).2.2.1 2 0
      ⟨paddedCount, rfl, rfl⟩ (by decide) (by decide +kernel)
    rw [hresolve, Nat.le_zero.1 hle]
  · rw [(resolve_environment gappedEnvironment).2.2.2 _ (by decide)]
    decide +kernel

end InputFiles

end LocalizedAccessors
