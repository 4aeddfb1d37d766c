import DesignSystem.Palette
/-!
# The dark pass

The dark pass turns a tree into its dark counterpart. Seven color roles follow a step of the
tree's own neutral scale, or take the shade of slate at that step where the tree has no token
there, and two shadows become heavier. All other tokens stay as they are.
-/

namespace DesignSystem.Tree

/-- The color roles of dark trees and the neutral steps that they follow. -/
def darkRoles : List (String × String) :=
  [("background", "950"), ("surface", "900"), ("surfaceMuted", "800"), ("border", "700"),
    ("borderStrong", "600"), ("textMuted", "200"), ("text", "50")]

/-- The small shadow of dark trees. -/
def darkShadowSmall : String :=
  "0 1px 2px 0 rgb(0 0 0 / 0.4)"

/-- The medium shadow of dark trees. -/
def darkShadowMedium : String :=
  "0 4px 6px -1px rgb(0 0 0 / 0.5), 0 2px 4px -2px rgb(0 0 0 / 0.4)"

/-- The path of a step of the neutral scale. -/
def neutralPath (step : String) : String :=
  "color.neutral." ++ step

/-- The value of a role that follows a neutral step of the tree. -/
def darkValue (t : Tree) (step : String) : String :=
  if (t.token? (neutralPath step)).isSome then "\x7b" ++ neutralPath step ++ "\x7d"
  else (Palette.slate? step).getD ""

/-- The edits of the dark pass on a tree, in order. -/
def darkEdits (t : Tree) : List (String × String) :=
  darkRoles.map (fun (role, step) => ("color." ++ role, t.darkValue step)) ++
    [("effect.shadow.sm", darkShadowSmall), ("effect.shadow.md", darkShadowMedium)]

/-- The tree after the given edits. -/
def setAll (t : Tree) (edits : List (String × String)) : Tree :=
  edits.foldl (fun t (path, value) => t.set path value) t

/-- The dark counterpart of a tree. The neutral scale is read from the tree as it was. -/
def darken (t : Tree) : Tree :=
  t.setAll t.darkEdits

/-- The built-in dark tree. -/
def dark : Tree :=
  light.darken

end DesignSystem.Tree
