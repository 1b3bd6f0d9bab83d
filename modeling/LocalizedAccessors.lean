import LocalizedAccessors.Main
import LocalizedAccessors.Proofs.Catalog.History
import LocalizedAccessors.Proofs.Catalog.LineBreaks
import LocalizedAccessors.Proofs.Command.Leniency
import LocalizedAccessors.Proofs.Command.Prediction
import LocalizedAccessors.Proofs.Command.ScriptInputs
import LocalizedAccessors.Proofs.Generation.Leaf
import LocalizedAccessors.Proofs.Placeholder.Flattening
import LocalizedAccessors.Proofs.Placeholder.Lexicon
import LocalizedAccessors.Proofs.Placeholder.Substitution
import LocalizedAccessors.Proofs.PropertyList.Acceptance
import LocalizedAccessors.Proofs.Source.Heading
import LocalizedAccessors.Proofs.Source.Lookup
import LocalizedAccessors.Proofs.Source.Mirror
import LocalizedAccessors.Proofs.Source.SharedName
import LocalizedAccessors.Proofs.Source.Signature
import LocalizedAccessors.Proofs.StringsTable.Encoding
import LocalizedAccessors.Proofs.StringsTable.Literal
import LocalizedAccessors.Proofs.StringsTable.Progress
import LocalizedAccessors.Proofs.StringsTable.Reading
import LocalizedAccessors.Proofs.StringsTable.Recovery
import LocalizedAccessors.Proofs.StringsTable.UnicodeEscape
import LocalizedAccessors.Proofs.Tree.Addressing
import LocalizedAccessors.Proofs.Tree.Refusal
