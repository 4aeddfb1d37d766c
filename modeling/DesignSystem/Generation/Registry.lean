import DesignSystem.Component.Fragments
import DesignSystem.Component.Description
import DesignSystem.Generation.Strategy
import DesignSystem.Style
/-!
# Generating code

A registry knows the fragments of components for one strategy. Code is generated for a component
by filling the strategy's skeletons with its description.

The values of tokens play no part in it: generated styles refer to style variables by name, and
`referencedVariables` tells which. A tree of tokens is only looked at for names that it lacks.
-/

namespace DesignSystem

/-- The fragments that components have under a strategy. -/
structure Registry where
  strategy : Strategy
  fragments : Component → Option Fragments

namespace Registry

/-- The registry without components. -/
def empty (strategy : Strategy) : Registry :=
  ⟨strategy, fun _ => none⟩

/-- The registry of the whole catalog. -/
def ofCatalog (strategy : Strategy) : Registry :=
  ⟨strategy, fun c => some c.fragments⟩

/-- The registry with fragments for a component, in place of those it had. -/
def register (r : Registry) (c : Component) (f : Fragments) : Registry :=
  { r with fragments := fun d => if d = c then some f else r.fragments d }

/-- Whether a component has fragments. -/
def contains (r : Registry) (c : Component) : Bool :=
  (r.fragments c).isSome

/-- The components with fragments in the order of the catalog. -/
def components (r : Registry) : List Component :=
  Component.all.filter r.contains

end Registry

namespace Generation

/-- Why no code comes out. -/
inductive Error where
  | unknownStrategy (name : String)
  | unknownComponent (id : String)
  | template (error : Template.Error)
  | disk (failure : Disk.Failure)
  deriving DecidableEq

/-- The text of an error; there is none for templates. -/
def Error.message? : Error → Option String
  | .unknownStrategy name => some ("unknown strategy '" ++ name ++ "'")
  | .unknownComponent id => some ("unknown component '" ++ id ++ "'")
  | .disk failure => some ("failed to write " ++ failure.text)
  | .template _ => none

/-- The component of an identifier. -/
def readComponent (id : String) : Except Error Component :=
  match Component.ofId? id with
  | some c => .ok c
  | none => .error (.unknownComponent id)

/-- The strategy of a name. -/
def readStrategy (name : String) : Except Error Strategy :=
  match Strategy.ofName? name with
  | some s => .ok s
  | none => .error (.unknownStrategy name)

/-- The file of an output for a description. -/
def fill (data : Json) (o : Output) : Except Template.Error GeneratedFile := do
  let fileName ← Template.renderText o.fileName data
  let content ← Skeleton.library.render o.skeleton data
  let description ← Template.renderText o.description data
  return ⟨fileName, content, o.language, description⟩

/-- The files of a component with given fragments. -/
def files (strategy : Strategy) (c : Component) (f : Fragments) :
    Except Template.Error (List GeneratedFile) :=
  strategy.outputs.mapM (fill (c.describe f))

end Generation

/-- The files of a component that is registered. -/
def Registry.generate? (r : Registry) (c : Component) :
    Option (Except Template.Error (List GeneratedFile)) :=
  (r.fragments c).map (Generation.files r.strategy c)

namespace Generation

/-- The files of a component of the catalog. -/
def generate (c : Component) (strategy : Strategy) : Except Error (List GeneratedFile) :=
  match (Registry.ofCatalog strategy).generate? c with
  | some r => r.mapError .template
  | none => .error (.unknownComponent c.id)

/-- The files of the component of an identifier under the strategy of a name; none where something
is unknown or goes wrong. -/
def generateCode (id strategy : String) : List GeneratedFile :=
  match Strategy.ofName? strategy, Component.ofId? id with
  | some s, some c => (generate c s).toOption.getD []
  | _, _ => []

/-- The files of every component of the catalog. -/
def generateAll (strategy : Strategy) : Except Error (List (Component × List GeneratedFile)) :=
  Component.all.mapM fun c => do return (c, ← generate c strategy)

/-! ### References to style variables -/

/-- What opens a reference. -/
def referenceMark : List Char :=
  "var(".toList

/-- Whether a character may be part of the name of a style variable. -/
def isVariableChar (c : Char) : Bool :=
  c.isAlphanum || c == '-' || c == '_'

/-- The name of the variable that a reference is to, given what follows the mark. -/
def variableAfter? (cs : List Char) : Option String :=
  let name := (Text.dropBlanks cs).takeWhile isVariableChar
  if variablePrefix.toList.isPrefixOf name then some (String.ofList name) else none

/-- The names of the variables that a text refers to, in the order of the references. -/
def references : List Char → List String
  | [] => []
  | c :: cs =>
    (if referenceMark.isPrefixOf (c :: cs) then
      (variableAfter? ((c :: cs).drop referenceMark.length)).toList
    else []) ++ references cs

/-- The names of the variables that a style sheet refers to, in order. -/
def referencedVariables (css : String) : List String :=
  Keyed.keys (Keyed.ofList ((references css.toList).map fun name => (name, ())))

/-- The names of the variables that a style sheet refers to and a tree does not define, in order. -/
def missingVariables (css : String) (tokens : Tree) : List String :=
  (referencedVariables css).filter fun name => !Keyed.has tokens.flatten name

/-- What comes of generating for a tree of tokens: the variables that are missing are reported, and
files come out all the same. -/
structure Report where
  missing : List String
  files : Except Template.Error (List GeneratedFile)

end Generation

/-- The report for a component that is registered. -/
def Registry.report? (r : Registry) (c : Component) (tokens : Tree) : Option Generation.Report :=
  (r.fragments c).map fun f =>
    ⟨Generation.missingVariables f.styles tokens, Generation.files r.strategy c f⟩

end DesignSystem
