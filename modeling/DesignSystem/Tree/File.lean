import DesignSystem.Tree.Document
import DesignSystem.Job
/-!
# Trees in files

The name of a file says in which format its tree is written.
-/

namespace DesignSystem.Tree

/-- Loads the tree of a file. A file whose name announces no format is not even read. -/
def load (path : String) : Job (Except LoadError Tree) := do
  match format? path with
  | none => return .error (.unsupportedFormat path)
  | some format =>
    match ← Job.read path with
    | .error e => return .error (.unreadable ⟨path, e⟩)
    | .ok text => return readAs format text

end DesignSystem.Tree
