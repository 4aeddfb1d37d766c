import DesignSystem.Component.Catalog
import DesignSystem.Component.Fragments.Basic
import DesignSystem.Json.Basic
import DesignSystem.Text.Case
import DesignSystem.Text.Cut
/-!
# Descriptions of components

The document that skeletons are filled with. It holds everything about a component and its
fragments as plain texts and lists, with all names in the forms in which code needs them.
-/

namespace DesignSystem.Component

/-- A text between single quotes. -/
def singleQuoted (s : String) : String :=
  "'" ++ s ++ "'"

namespace PropertyKind

/-- The name of a kind. -/
def name : PropertyKind → String
  | text => "text"
  | flag => "flag"
  | number _ => "number"
  | choice _ => "choice"
  | list _ => "list"

/-- The type of the values of a kind in generated code. -/
def codeType : PropertyKind → String
  | text => "string"
  | flag => "boolean"
  | number _ => "number"
  | choice options => " | ".intercalate (options.map singleQuoted)
  | list element => "Array<" ++ element ++ ">"

/-- The default value of a kind in generated code. -/
def initialCode : PropertyKind → String
  | text => "''"
  | flag => "false"
  | number initial => toString initial
  | choice options => singleQuoted (options.head?.getD "")
  | list _ => "[]"

/-- The options of a choice. -/
def options : PropertyKind → List String
  | choice options => options
  | text | flag | number _ | list _ => []

/-- Whether values of the kind are shown as text that comes from outside. -/
def showsText : PropertyKind → Bool
  | text | list _ => true
  | flag | number _ | choice _ => false

end PropertyKind

/-- The document of a list of texts. -/
def textList (l : List String) : Json :=
  .array (l.map .string)

/-- The document of a text that may be missing. -/
def optionalText : Option String → Json
  | some s => .string s
  | none => .null

/-- The document of a property. -/
def Property.describe (p : Property) : Json :=
  .object [("name", .string p.name), ("attr", .string (Text.kebabCase p.name)),
    ("kind", .string p.kind.name), ("ts_type", .string p.kind.codeType),
    ("default", .string p.kind.initialCode), ("options", textList p.kind.options)]

/-- The document of an event. -/
def Event.describe (e : Event) : Json :=
  .object [("name", .string e.name), ("dom_event", .string e.domEvent),
    ("selector", .string e.selector), ("detail_type", .string e.detailType),
    ("detail", .string e.detail), ("effect", optionalText e.effect),
    ("custom_event", .string ("ds-" ++ Text.kebabCase e.name)),
    ("handler", .string ("on" ++ Text.pascalCase e.name))]

/-- The hooks that a view may call. -/
def hooks : List String :=
  ["useState", "useEffect", "useMemo", "useRef"]

/-- The hooks that a view calls. -/
def hooksIn (view : String) : List String :=
  hooks.filter fun hook => Text.occursIn (hook ++ "(").toList view.toList

/-- The points of its life at which a component must act. -/
def lifecycle (i : Interface) : List String :=
  (if i.properties.isEmpty then [] else ["OnChanges"]) ++
    if i.events.isEmpty then [] else ["OnDestroy", "OnInit"]

/-- The component's name in Pascal case. -/
def pascalName (c : Component) : String :=
  Text.pascalCase c.definition.name

/-- The component's identifier in kebab case. -/
def kebabName (c : Component) : String :=
  Text.kebabCase c.id

/-- The name of the component's custom element. -/
def tagName (c : Component) : String :=
  "ds-" ++ c.id

/-- The document of a component with given fragments. -/
def describe (c : Component) (f : Fragments) : Json :=
  .object [("id", .string c.id), ("name", .string c.definition.name),
    ("description", .string c.definition.description),
    ("category", .string c.definition.category.name),
    ("pascal", .string c.pascalName), ("kebab", .string c.kebabName),
    ("tag", .string c.tagName), ("selector", .string ("app-" ++ c.id)),
    ("class_name", .string ("Ds" ++ c.pascalName)), ("display", .string c.interface.display),
    ("slot", .bool c.interface.hasSlot),
    ("props", .array (c.interface.properties.map Property.describe)),
    ("events", .array (c.interface.events.map Event.describe)),
    ("has_text", .bool (c.interface.properties.any fun p => p.kind.showsText)),
    ("react_hooks", textList (hooksIn f.reactView)),
    ("angular_lifecycle", textList (lifecycle c.interface)),
    ("styles", .string f.styles), ("element", .string f.element),
    ("view_jsx", .string f.reactView), ("view_ng", .string f.angularView),
    ("members_wc", optionalText f.elementMembers), ("members_ng", optionalText f.angularMembers)]

end DesignSystem.Component
