import DesignSystem.Generation.Registry
import DesignSystem.Schema
import DesignSystem.Studio.Store
import DesignSystem.Shell.Command
/-!
# Failures of commands
-/

namespace DesignSystem.Shell

/-- Why a command fails. -/
inductive Failure where
  | tokens (path : String) (error : Tree.LoadError)
  | broken (error : Tree.AliasError)
  | studio (folder : String) (error : Studio.OpenError)
  | refused (refusal : Studio.Refusal)
  | notSaved (error : StoreError)
  | generation (error : Generation.Error)
  | generating (component : Component) (strategy : Strategy) (error : Generation.Error)
  | notWritten (path : String) (error : Disk.Error)
  | notSet (path : String)
  | issues (found : List Issue)
  | noStore
  | noBrand (key : String)
  deriving DecidableEq

/-- The list of what is wrong with a tree. -/
def report (issues : List Issue) : String :=
  toString issues.length ++ " validation issue(s):\n" ++
    Text.trimEnd (Text.lines (issues.map fun i => "  " ++ i.describe))

/-- The text of a failure; there is none for templates, nor for a text that is no snapshot, which
comes up in opening a studio and not in saving one. -/
def Failure.message? : Failure → Option String
  | .tokens path _ => some ("loading tokens from " ++ path)
  | .broken error => some error.message
  | .studio folder _ => some ("opening studio at " ++ folder)
  | .refused refusal => some refusal.message
  | .notSaved error => error.message?
  | .generation error => error.message?
  | .generating c strategy _ => some ("generating " ++ c.id ++ " for " ++ strategy.name)
  | .notWritten path _ => some ("writing " ++ path)
  | .notSet path => some ("cannot set '" ++ path ++
      "': the path is empty, runs through a token, or names a group")
  | .issues found => some (report found)
  | .noStore => some "brand commands need a store: pass --store or set DSFORGE_STORE"
  | .noBrand key => some ("no brand '" ++ key ++ "'")

end DesignSystem.Shell
