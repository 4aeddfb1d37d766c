import DesignSystem.Dark
import DesignSystem.Instant
/-!
# Brands and themes

A brand keeps several versions of one design system, its themes. Every theme is a tree of tokens
for either light or dark surroundings; a new brand has one of each.
-/

namespace DesignSystem

/-- The surroundings that a theme is made for. -/
inductive Mode where
  | light
  | dark
  deriving DecidableEq

namespace Mode

/-- The name of a mode. -/
def name : Mode → String
  | light => "light"
  | dark => "dark"

/-- The mode of a name. -/
def ofName? (name : String) : Option Mode :=
  [light, dark].find? fun m => m.name == name

theorem ofName?_name (m : Mode) : ofName? m.name = some m := by
  cases m <;> decide

end Mode

/-- A version of a design system. -/
structure Theme where
  id : String
  name : String
  mode : Mode
  tokens : Tree
  deriving DecidableEq

/-- A design system with all its versions. -/
structure Brand where
  id : String
  name : String
  description : String
  themes : List Theme
  createdAt : Instant
  updatedAt : Instant
  deriving DecidableEq

namespace Brand

/-- The identifiers that a new brand takes: its own and those of its two themes. -/
structure Ids where
  brand : String
  light : String
  dark : String
  deriving DecidableEq

/-- A new brand with the built-in trees as its themes. -/
def create (ids : Ids) (now : Instant) (name description : String) : Brand where
  id := ids.brand
  name := name
  description := description
  themes := [⟨ids.light, "Light", .light, Tree.light⟩, ⟨ids.dark, "Dark", .dark, Tree.dark⟩]
  createdAt := now
  updatedAt := now

/-- The theme with an identifier. -/
def theme? (b : Brand) (id : String) : Option Theme :=
  b.themes.find? fun t => t.id == id

/-- The position of the first theme of a mode, or of the first theme at all. -/
def indexForMode (b : Brand) (mode : Mode) : Nat :=
  (b.themes.findIdx? fun t => t.mode == mode).getD 0

/-- The theme that shows a mode. -/
def themeForMode? (b : Brand) (mode : Mode) : Option Theme :=
  b.themes[b.indexForMode mode]?

/-- The brand with a new time of its last change. -/
def touch (b : Brand) (now : Instant) : Brand :=
  { b with updatedAt := now }

end Brand

end DesignSystem
