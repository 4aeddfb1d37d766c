import DesignSystem.Template.Library
import DesignSystem.Generation.Skeleton.WebComponent
import DesignSystem.Generation.Skeleton.NativeReact
import DesignSystem.Generation.Skeleton.NativeAngular
import DesignSystem.Generation.File
/-!
# Strategies

A strategy is a way of writing a component in code. It says which files there are: each is filled
from a skeleton, and its name and description are templates, too.
-/

namespace DesignSystem

/-- The ways of writing a component. -/
inductive Strategy where
  | webComponent
  | nativeReact
  | nativeAngular
  deriving DecidableEq

/-- A file of a strategy. -/
structure Output where
  skeleton : String
  fileName : String
  language : Language
  description : String
  deriving DecidableEq

namespace Strategy

/-- All strategies. -/
def all : List Strategy :=
  [.webComponent, .nativeReact, .nativeAngular]

/-- The name of a strategy. -/
def name : Strategy → String
  | webComponent => "web-component"
  | nativeReact => "native-react"
  | nativeAngular => "native-angular"

/-- The strategy of a name. -/
def ofName? (name : String) : Option Strategy :=
  all.find? fun s => s.name == name

theorem ofName?_name (s : Strategy) : ofName? s.name = some s := by
  cases s <;> decide

/-- The files of a strategy. -/
def outputs : Strategy → List Output
  | webComponent => [
      ⟨"web-component/element.ts", "\x7b\x7b tag \x7d\x7d.ts", .ts,
        "<\x7b\x7b tag \x7d\x7d> custom element with Shadow DOM styles"⟩,
      ⟨"web-component/react-wrapper.ts", "\x7b\x7b tag \x7d\x7d.react.ts", .ts,
        "React wrapper for <\x7b\x7b tag \x7d\x7d>"⟩,
      ⟨"web-component/angular-wrapper.ts", "\x7b\x7b tag \x7d\x7d.angular.ts", .ts,
        "Angular directive for <\x7b\x7b tag \x7d\x7d>"⟩]
  | nativeReact => [
      ⟨"native-react/component.tsx", "\x7b\x7b pascal \x7d\x7d.tsx", .ts,
        "\x7b\x7b name \x7d\x7d React component"⟩,
      ⟨"native-react/module.css", "\x7b\x7b pascal \x7d\x7d.module.css", .css,
        "\x7b\x7b name \x7d\x7d CSS module"⟩,
      ⟨"native-react/index.ts", "index.ts", .ts, "Barrel export for \x7b\x7b pascal \x7d\x7d"⟩]
  | nativeAngular => [
      ⟨"native-angular/component.ts", "\x7b\x7b kebab \x7d\x7d.component.ts", .ts,
        "\x7b\x7b name \x7d\x7d standalone Angular component"⟩,
      ⟨"native-angular/component.css", "\x7b\x7b kebab \x7d\x7d.component.css", .css,
        "\x7b\x7b name \x7d\x7d component styles"⟩]

end Strategy

namespace Skeleton

/-- The skeletons with their names. -/
def sources : List (String × String) :=
  [("web-component/element.ts", WebComponent.elementText),
    ("web-component/react-wrapper.ts", WebComponent.reactWrapperText),
    ("web-component/angular-wrapper.ts", WebComponent.angularWrapperText),
    ("native-react/component.tsx", NativeReact.componentText),
    ("native-react/module.css", NativeReact.moduleText),
    ("native-react/index.ts", NativeReact.indexText),
    ("native-angular/component.ts", NativeAngular.componentText),
    ("native-angular/component.css", NativeAngular.stylesheetText)]

/-- The library of the skeletons. -/
def library : TemplateLibrary :=
  TemplateLibrary.ofList sources

end Skeleton

end DesignSystem
