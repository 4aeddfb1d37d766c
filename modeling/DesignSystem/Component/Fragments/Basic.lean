import DesignSystem.Text.Cut
/-!
# Fragments

The parts of a component's code that are written by hand: its style sheet, its content as a custom
element, its views for two frameworks, and members of its classes where it needs some. Fragments
are plain text. They are put into skeletons as they stand, so whatever looks like a gap or a tag
in them means nothing.
-/

namespace DesignSystem

/-- The parts of a component that are written by hand. -/
structure Fragments where
  styles : String
  element : String
  reactView : String
  angularView : String
  elementMembers : Option String
  angularMembers : Option String
  deriving DecidableEq

end DesignSystem
