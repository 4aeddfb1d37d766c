import DesignSystem.Component.Catalog
import DesignSystem.Component.Fragments.Button
import DesignSystem.Component.Fragments.Input
import DesignSystem.Component.Fragments.Badge
import DesignSystem.Component.Fragments.Avatar
import DesignSystem.Component.Fragments.Checkbox
import DesignSystem.Component.Fragments.Switch
import DesignSystem.Component.Fragments.Progress
import DesignSystem.Component.Fragments.Card
import DesignSystem.Component.Fragments.Alert
import DesignSystem.Component.Fragments.Select
import DesignSystem.Component.Fragments.Tabs
import DesignSystem.Component.Fragments.Tooltip
import DesignSystem.Component.Fragments.Toast
import DesignSystem.Component.Fragments.Modal
import DesignSystem.Component.Fragments.Navbar
import DesignSystem.Component.Fragments.Table
/-!
# The fragments of the catalog
-/

namespace DesignSystem.Component

/-- The fragments of a component. -/
def fragments : Component → Fragments
  | button => Fragments.button
  | input => Fragments.input
  | badge => Fragments.badge
  | avatar => Fragments.avatar
  | checkbox => Fragments.checkbox
  | switch => Fragments.switch
  | progress => Fragments.progress
  | card => Fragments.card
  | alert => Fragments.alert
  | select => Fragments.select
  | tabs => Fragments.tabs
  | tooltip => Fragments.tooltip
  | toast => Fragments.toast
  | modal => Fragments.modal
  | navbar => Fragments.navbar
  | table => Fragments.table

end DesignSystem.Component
