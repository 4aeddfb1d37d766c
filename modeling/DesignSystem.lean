import DesignSystem.Main
import DesignSystem.Token.Record
import DesignSystem.Proofs.Studio.Position
import DesignSystem.Proofs.Studio.Active
import DesignSystem.Proofs.Studio.Recall
import DesignSystem.Proofs.Instant
import DesignSystem.Proofs.Json.Numeral
import DesignSystem.Proofs.Json.Readable
import DesignSystem.Proofs.Studio.Folder
import DesignSystem.Proofs.Studio.Identifiers
import DesignSystem.Proofs.Studio.Persistence
import DesignSystem.Proofs.Tree.Listing
import DesignSystem.Proofs.Tree.References
import DesignSystem.Proofs.Tree.Editing
import DesignSystem.Proofs.Tree.Chain
import DesignSystem.Proofs.Tree.Keys
import DesignSystem.Proofs.Tree.Indirection
import DesignSystem.Proofs.Tree.Edits
import DesignSystem.Proofs.Tree.Darkening
import DesignSystem.Proofs.Studio.Suggestion
import DesignSystem.Proofs.Tree.Conformity
import DesignSystem.Proofs.Tree.DarkConformity
import DesignSystem.Proofs.Tree.Resolution
import DesignSystem.Proofs.History
import DesignSystem.Proofs.Schema
import DesignSystem.Proofs.Json.Value
import DesignSystem.Proofs.Tree.Reload
import DesignSystem.Proofs.Tree.Variables
import DesignSystem.Proofs.Tree.Lookup
import DesignSystem.Proofs.Studio.Undoing
import DesignSystem.Proofs.Studio.InPlace
import DesignSystem.Proofs.Shell.Effects
import DesignSystem.Proofs.Generation.FileName
import DesignSystem.Proofs.Studio.Alike
import DesignSystem.Proofs.Shell.Session
import DesignSystem.Proofs.Mishap
import DesignSystem.Proofs.Studio.Interruption
import DesignSystem.Proofs.Generation.Slot
import DesignSystem.Proofs.Generation.Splice
import DesignSystem.Proofs.Tree.Independence
import DesignSystem.Proofs.Tree.DarkPaths
import DesignSystem.Proofs.Tree.Restyling
import DesignSystem.Proofs.Tree.Dependence
import DesignSystem.Proofs.Tree.LiteralEdits
import DesignSystem.Proofs.Studio.Deletion
import DesignSystem.Proofs.Shell.SetCommand
import DesignSystem.Proofs.Generation.References
import DesignSystem.Proofs.Yaml.Representation
import DesignSystem.Proofs.Tree.Inference
import DesignSystem.Proofs.Tree.StoredValues
import DesignSystem.Proofs.Text.Case
import DesignSystem.Proofs.Token.Alias
import DesignSystem.Proofs.Studio.Interchange
