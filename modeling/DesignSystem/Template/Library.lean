import DesignSystem.Template.Reader
import DesignSystem.Template.Render
import DesignSystem.Keyed
/-!
# Libraries of templates

A library keeps templates under names. A text that is no template is not added, and the template
that had the name before stays.
-/

namespace DesignSystem.Template

/-- The text of a template that is given as a text. -/
def renderText (s : String) (data : Json) : Except Error String := do
  render (← read s) data

end DesignSystem.Template

namespace DesignSystem

/-- Templates under names. -/
structure TemplateLibrary where
  templates : Keyed Template

namespace TemplateLibrary

/-- The library without templates. -/
def empty : TemplateLibrary :=
  ⟨[]⟩

/-- The library with the template of a text under a name. -/
def add (l : TemplateLibrary) (name text : String) : Except Template.Error TemplateLibrary := do
  return ⟨Keyed.set l.templates name (← Template.read text)⟩

/-- Whether there is a template of a name. -/
def has (l : TemplateLibrary) (name : String) : Bool :=
  Keyed.has l.templates name

/-- The text of the template of a name. -/
def render (l : TemplateLibrary) (name : String) (data : Json) : Except Template.Error String :=
  match Keyed.get? l.templates name with
  | some t => t.render data
  | none => .error (.missingTemplate name)

/-- The library of the given names and texts. -/
def ofList (sources : List (String × String)) : TemplateLibrary :=
  sources.foldl (fun l (name, text) => (l.add name text).toOption.getD l) empty

end TemplateLibrary

end DesignSystem
