/-!
# The catalog of components

The components that code is generated for. Each has a definition for readers and an interface for
programs: properties, events, whether it holds content of its user's, and how it is displayed.
-/

namespace DesignSystem

/-- The components of the catalog. -/
inductive Component where
  | button
  | input
  | badge
  | avatar
  | checkbox
  | switch
  | progress
  | card
  | alert
  | select
  | tabs
  | tooltip
  | toast
  | modal
  | navbar
  | table
  deriving DecidableEq

namespace Component

/-- The catalog in its order. -/
def all : List Component :=
  [.button, .input, .badge, .avatar, .checkbox, .switch, .progress, .card, .alert, .select, .tabs,
    .tooltip, .toast, .modal, .navbar, .table]

theorem mem_all (c : Component) : c ∈ all := by
  cases c <;> decide

/-! ### Definitions -/

/-- How large a part of a page a component is. -/
inductive Category where
  | atom
  | molecule
  | organism
  deriving DecidableEq

/-- The name of a category. -/
def Category.name : Category → String
  | .atom => "atom"
  | .molecule => "molecule"
  | .organism => "organism"

/-- What a component is, in words. -/
structure Definition where
  id : String
  name : String
  category : Category
  description : String
  deriving DecidableEq

/-- The definition of a component. -/
def definition : Component → Definition
  | button => ⟨"button", "Button", .atom, "Clickable action with variants and sizes"⟩
  | input => ⟨"input", "Input", .atom, "Single-line text field with label and hint"⟩
  | badge => ⟨"badge", "Badge", .atom, "Compact status or count label"⟩
  | avatar => ⟨"avatar", "Avatar", .atom, "User image with initials fallback"⟩
  | checkbox => ⟨"checkbox", "Checkbox", .atom, "Binary choice with a label"⟩
  | switch => ⟨"switch", "Switch", .atom, "On/off toggle"⟩
  | progress => ⟨"progress", "Progress", .atom, "Determinate progress bar"⟩
  | card => ⟨"card", "Card", .molecule, "Surface grouping related content"⟩
  | alert => ⟨"alert", "Alert", .molecule, "Inline status message"⟩
  | select => ⟨"select", "Select", .molecule, "Dropdown choice from a list of options"⟩
  | tabs => ⟨"tabs", "Tabs", .molecule, "Switches between related panels"⟩
  | tooltip => ⟨"tooltip", "Tooltip", .molecule, "Hint shown on hover or focus"⟩
  | toast => ⟨"toast", "Toast", .molecule, "Transient notification"⟩
  | modal => ⟨"modal", "Modal", .organism, "Dialog over a backdrop"⟩
  | navbar => ⟨"navbar", "Navbar", .organism, "Top-level site navigation"⟩
  | table => ⟨"table", "Table", .organism, "Tabular data with column headers"⟩

/-- The identifier of a component. -/
def id (c : Component) : String :=
  c.definition.id

/-- The component with an identifier. -/
def ofId? (id : String) : Option Component :=
  all.find? fun c => c.id == id

theorem ofId?_id (c : Component) : ofId? c.id = some c := by
  cases c <;> decide

/-! ### Interfaces -/

/-- The type of a property: a text, a flag, a number with its default, one of several options of
which the first is the default, or a list of values of a type. -/
inductive PropertyKind where
  | text
  | flag
  | number (initial : Nat)
  | choice (options : List String)
  | list (element : String)
  deriving DecidableEq

/-- What a user of a component can set. -/
structure Property where
  name : String
  kind : PropertyKind
  deriving DecidableEq

/-- What a component tells its user. The event comes from another event of the elements that a
selector names. It carries a detail, an expression with its type, after an effect on the component
itself. -/
structure Event where
  name : String
  domEvent : String
  selector : String
  detailType : String
  detail : String
  effect : Option String
  deriving DecidableEq

/-- What a program sees of a component. -/
structure Interface where
  properties : List Property
  events : List Event
  hasSlot : Bool
  display : String
  deriving DecidableEq

/-- The three sizes. -/
def sizes : List String :=
  ["md", "sm", "lg"]

/-- The kinds of messages. -/
def statuses : List String :=
  ["info", "success", "warning", "danger"]

/-- The event that an element with a dismiss mark is clicked. -/
def dismissal (effect : String) : Event :=
  ⟨"dismiss", "click", "[data-dismiss]", "null", "null", some effect⟩

/-- The interface of a component. -/
def interface : Component → Interface
  | button => {
      properties := [
        ⟨"variant", .choice ["primary", "secondary", "outline", "ghost", "danger"]⟩,
        ⟨"size", .choice sizes⟩,
        ⟨"disabled", .flag⟩]
      events := [⟨"press", "click", "button", "null", "null", none⟩]
      hasSlot := true
      display := "inline-block" }
  | input => {
      properties := [
        ⟨"label", .text⟩,
        ⟨"placeholder", .text⟩,
        ⟨"value", .text⟩,
        ⟨"type", .choice ["text", "email", "password", "search", "tel", "url"]⟩,
        ⟨"hint", .text⟩,
        ⟨"invalid", .flag⟩,
        ⟨"disabled", .flag⟩]
      events := [⟨"valueChange", "input", "input", "string",
        "(target as HTMLInputElement).value", none⟩]
      hasSlot := false
      display := "block" }
  | badge => {
      properties := [
        ⟨"variant", .choice ["neutral", "primary", "success", "warning", "danger"]⟩]
      events := []
      hasSlot := true
      display := "inline-flex" }
  | avatar => {
      properties := [⟨"src", .text⟩, ⟨"name", .text⟩, ⟨"size", .choice sizes⟩]
      events := []
      hasSlot := false
      display := "inline-flex" }
  | checkbox => {
      properties := [⟨"label", .text⟩, ⟨"checked", .flag⟩, ⟨"disabled", .flag⟩]
      events := [⟨"checkedChange", "change", "input", "boolean", "this.checked",
        some "this.checked = (target as HTMLInputElement).checked;"⟩]
      hasSlot := false
      display := "inline-flex" }
  | switch => {
      properties := [⟨"label", .text⟩, ⟨"checked", .flag⟩, ⟨"disabled", .flag⟩]
      events := [⟨"checkedChange", "click", "[role=\"switch\"]", "boolean", "this.checked",
        some "this.checked = !this.checked;"⟩]
      hasSlot := false
      display := "inline-flex" }
  | progress => {
      properties := [⟨"value", .number 0⟩, ⟨"max", .number 100⟩, ⟨"label", .text⟩]
      events := []
      hasSlot := false
      display := "block" }
  | card => {
      properties := [⟨"heading", .text⟩, ⟨"subheading", .text⟩, ⟨"elevated", .flag⟩]
      events := []
      hasSlot := true
      display := "block" }
  | alert => {
      properties := [⟨"variant", .choice statuses⟩, ⟨"heading", .text⟩, ⟨"dismissible", .flag⟩]
      events := [dismissal "this.hidden = true;"]
      hasSlot := true
      display := "block" }
  | select => {
      properties := [
        ⟨"label", .text⟩,
        ⟨"value", .text⟩,
        ⟨"placeholder", .text⟩,
        ⟨"options", .list "\x7b value: string; label: string \x7d"⟩,
        ⟨"disabled", .flag⟩]
      events := [⟨"valueChange", "change", "select", "string", "this.value",
        some "this.value = (target as HTMLSelectElement).value;"⟩]
      hasSlot := false
      display := "block" }
  | tabs => {
      properties := [
        ⟨"tabs", .list "\x7b id: string; label: string \x7d"⟩,
        ⟨"active", .text⟩]
      events := [⟨"tabChange", "click", "[data-tab]", "string", "this.active",
        some "this.active = target.dataset.tab ?? '';"⟩]
      hasSlot := true
      display := "block" }
  | tooltip => {
      properties := [
        ⟨"text", .text⟩,
        ⟨"placement", .choice ["top", "bottom", "left", "right"]⟩]
      events := []
      hasSlot := true
      display := "inline-block" }
  | toast => {
      properties := [⟨"variant", .choice statuses⟩, ⟨"heading", .text⟩, ⟨"message", .text⟩]
      events := [dismissal "this.hidden = true;"]
      hasSlot := false
      display := "block" }
  | modal => {
      properties := [⟨"open", .flag⟩, ⟨"heading", .text⟩]
      events := [dismissal "this.open = false;"]
      hasSlot := true
      display := "contents" }
  | navbar => {
      properties := [
        ⟨"brand", .text⟩,
        ⟨"links", .list "\x7b label: string; href: string; active?: boolean \x7d"⟩]
      events := [⟨"navigate", "click", "a[data-href]", "string",
        "target.dataset.href ?? ''", none⟩]
      hasSlot := true
      display := "block" }
  | table => {
      properties := [
        ⟨"columns", .list "\x7b key: string; label: string \x7d"⟩,
        ⟨"rows", .list "Record<string, string | number>"⟩,
        ⟨"striped", .flag⟩]
      events := []
      hasSlot := false
      display := "block" }

end Component

end DesignSystem
