import DesignSystem.Tree.Basic
/-!
# Style variables

A tree is flattened to style variables: every token gives the variable named by its path, joined
with dashes, and a scale's representative the variable of the scale itself. Aliases become a single
reference and are not followed, so flattening ends for cyclic aliases too. Of variables of the same
name the one that comes last in the tree counts.
-/

namespace DesignSystem

/-- Values of style variables under their names. -/
abbrev StyleVariables :=
  Keyed String

namespace Tree

/-- The name that the token under `key` gives its variable, without the common prefix; `path` is
the name of the group around it. -/
def variableStem (path key : String) : String :=
  if key = defaultKey ∧ path ≠ "" then path else extend '-' path key

namespace Node

mutual

/-- The variables of the node under `key` in a group, in the order of the tree. -/
def nodeVariables (path key : String) : Node → List (String × String)
  | .token t => [(variablePrefix ++ variableStem path key, t.style)]
  | .group members => memberVariables (extend '-' path key) members
  | .metadata _ => []

/-- The variables of the members of a group; reserved keys are left out. -/
def memberVariables (path : String) : List (String × Node) → List (String × String)
  | [] => []
  | (key, n) :: rest =>
    (if isReserved key then [] else nodeVariables path key n) ++ memberVariables path rest

end

end Node

/-- The style variables of a tree. -/
def flatten (t : Tree) : StyleVariables :=
  Keyed.ofList (Node.memberVariables "" t.members)

end Tree

/-- A rule that declares the variables for the elements a selector names. -/
def StyleVariables.toCss (vars : StyleVariables) (selector : String) : String :=
  Text.lines ([selector ++ " \x7b"] ++
    vars.map (fun (name, value) => "  " ++ name ++ ": " ++ value ++ ";") ++ ["\x7d"])

/-- The selector of the document's root. -/
def rootSelector : String :=
  ":root"

/-- The variables of a tree, declared for the document's root. -/
def Tree.toCss (t : Tree) : String :=
  StyleVariables.toCss t.flatten rootSelector

end DesignSystem
