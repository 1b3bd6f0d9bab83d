import LocalizedAccessors.Accessor.Key
import LocalizedAccessors.Report.Failure

/-!
# Notices

What a run reports beside its result. A notice says what happened; its level, its wording and its
details follow from that. Operations that report give their notices together with their value, and
the notices can always be left out of consideration.
-/

namespace LocalizedAccessors

/-- How much a notice matters, the least first. -/
inductive Level where
  | debug
  | info
  | warn
  deriving DecidableEq, Repr

def Level.name : Level → String
  | debug => "debug"
  | info => "info"
  | warn => "warn"

def Level.rank : Level → Nat
  | debug => 0
  | info => 1
  | warn => 2

inductive Notice where
  /-- A key that names nothing was passed over. -/
  | namelessKey (key : String) (reason : Nameless)
  /-- A key got a new value. -/
  | replacedKey (key origin : String)
  | mergedSource (origin : String) (added : Nat)
  /-- A plural rule without a format was passed over. -/
  | formatlessRule (key : String)
  /-- A namespace has a sibling with the same structure name. -/
  | sharedStructName (namespacePath : String)
  | generated (keys entries namespaces : Nat)
  /-- A file has the generated content already. -/
  | unchangedFile (path : String)
  | configured (path : String)
  | skippedInput (path : String) (fault : InputFault)
  | skippedSource (path : String) (failure : SourceFailure)
  | noInputs
  | outputWritten (path : String)
  | outputUnchanged (path : String)
  deriving DecidableEq, Repr

/-- A detail of a notice. -/
inductive Detail where
  | text (value : String)
  | number (value : Nat)
  deriving DecidableEq, Repr

namespace Notice

def level : Notice → Level
  | namelessKey .. | sharedStructName _ | skippedInput .. | skippedSource .. => .warn
  | generated .. | noInputs | outputWritten _ | outputUnchanged _ => .info
  | replacedKey .. | mergedSource .. | formatlessRule _ | unchangedFile _ | configured _ => .debug

def message : Notice → String
  | namelessKey _ .noSegment => "skipping key without identifier"
  | namelessKey _ .onlyUnderscores => "skipping key without a member name"
  | replacedKey .. => "overwriting previously defined key"
  | mergedSource .. => "merged localization source"
  | formatlessRule _ => "stringsdict entry has no NSStringLocalizedFormatKey"
  | sharedStructName _ => "namespace renders to the same struct name as a sibling"
  | generated .. => "generated accessors"
  | unchangedFile _ => "generated file is up to date"
  | configured _ => "loaded configuration"
  | skippedInput _ fault => fault.message ++ ", treating it as empty"
  | skippedSource .. => "cannot read input, treating it as empty"
  | noInputs => "no input files, nothing to generate"
  | outputWritten _ => "wrote generated accessors"
  | outputUnchanged _ => "generated accessors are up to date"

/-- The details of a notice by name. -/
def details : Notice → List (String × Detail)
  | namelessKey key _ | formatlessRule key => [("key", .text key)]
  | replacedKey key origin => [("key", .text key), ("origin", .text origin)]
  | mergedSource origin added => [("origin", .text origin), ("added", .number added)]
  | sharedStructName path => [("namespace", .text path)]
  | generated keys entries namespaces =>
    [("keys", .number keys), ("entries", .number entries), ("namespaces", .number namespaces)]
  | unchangedFile path | configured path | skippedInput path _ | outputWritten path
  | outputUnchanged path => [("path", .text path)]
  | skippedSource path failure => [("path", .text path), ("error", .text failure.message)]
  | noInputs => []

/-- The notices of a level and of those that matter more. -/
def atLeast (least : Level) (notices : List Notice) : List Notice :=
  notices.filter fun notice ↦ least.rank ≤ notice.level.rank

end Notice

/-- A value and what was reported on the way to it. -/
structure Reported (α : Type) where
  value : α
  notices : List Notice
  deriving Repr

namespace Reported

variable {α β : Type}

instance : Monad Reported where
  pure a := ⟨a, []⟩
  bind first next :=
    let second := next first.value
    ⟨second.value, first.notices ++ second.notices⟩

/-- Reports one notice. -/
def report (notice : Notice) : Reported Unit := ⟨(), [notice]⟩

@[simp] theorem value_pure (a : α) : (pure a : Reported α).value = a := rfl

@[simp] theorem value_bind (first : Reported α) (next : α → Reported β) :
    (first >>= next).value = (next first.value).value := rfl

@[simp] theorem value_map (f : α → β) (first : Reported α) :
    (f <$> first).value = f first.value := rfl

@[simp] theorem notices_pure (a : α) : (pure a : Reported α).notices = [] := rfl

@[simp] theorem notices_bind (first : Reported α) (next : α → Reported β) :
    (first >>= next).notices = first.notices ++ (next first.value).notices := rfl

instance : LawfulMonad Reported :=
  LawfulMonad.mk' _ (fun ⟨a, notices⟩ ↦ by simp [Functor.map])
    (fun a next ↦ by simp [bind, pure])
    (fun first next last ↦ by simp [bind, List.append_assoc])

end Reported

end LocalizedAccessors
