import DesignSystem.Studio.Basic
import DesignSystem.Json.Record
/-!
# Snapshots

A snapshot is what is kept of a studio: its brands and the identifiers of the active brand and of
the active theme. It has a text, which is read back as a record; the description of a brand may be
left out of the text.
-/

namespace DesignSystem

/-- What is kept of a studio. -/
structure Snapshot where
  brands : List Brand
  activeBrandId : String
  activeThemeId : String
  deriving DecidableEq

/-! ### Writing -/

/-- The document of a theme. -/
def Theme.toJson (t : Theme) : Json :=
  .object [("id", .string t.id), ("name", .string t.name), ("mode", .string t.mode.name),
    ("tokens", t.tokens.toJson)]

/-- The document of a brand. -/
def Brand.toJson (b : Brand) : Json :=
  .object [("id", .string b.id), ("name", .string b.name), ("description", .string b.description),
    ("themes", .array (b.themes.map Theme.toJson)), ("createdAt", .string b.createdAt.write),
    ("updatedAt", .string b.updatedAt.write)]

/-- The document of a snapshot. -/
def Snapshot.toJson (s : Snapshot) : Json :=
  .object [("brands", .array (s.brands.map Brand.toJson)),
    ("activeBrandId", .string s.activeBrandId), ("activeThemeId", .string s.activeThemeId)]

/-! ### Reading -/

/-- Reads a theme. -/
def Theme.ofSource (depth : Nat) (s : Json.Source) : Option Theme :=
  Json.Source.opened depth fun depth => do
    match ← s.fields ["id", "name", "mode", "tokens"] with
    | [some id, some name, some mode, some tokens] =>
      let id ← id.text
      let name ← name.text
      let mode ← Mode.ofName? (← mode.alternative depth)
      let tokens ← (Tree.ofJson (← tokens.value depth)).toOption
      return ⟨id, name, mode, tokens⟩
    | _ => none

/-- Reads an instant. -/
def Instant.ofSource (s : Json.Source) : Option Instant := do
  Instant.read (← s.text)

/-- Reads a brand. -/
def Brand.ofSource (depth : Nat) (s : Json.Source) : Option Brand :=
  Json.Source.opened depth fun depth => do
    match ← s.fields ["id", "name", "description", "themes", "createdAt", "updatedAt"] with
    | [some id, some name, description, some themes, some createdAt, some updatedAt] =>
      let id ← id.text
      let name ← name.text
      let description ← match description with
        | some d => d.text
        | none => some ""
      let themes ← themes.list depth Theme.ofSource
      let createdAt ← Instant.ofSource createdAt
      let updatedAt ← Instant.ofSource updatedAt
      return ⟨id, name, description, themes, createdAt, updatedAt⟩
    | _ => none

namespace Snapshot

/-- Reads a snapshot. -/
def ofSource (depth : Nat) (s : Json.Source) : Option Snapshot :=
  Json.Source.opened depth fun depth => do
    match ← s.fields ["brands", "activeBrandId", "activeThemeId"] with
    | [some brands, some activeBrandId, some activeThemeId] =>
      let brands ← brands.list depth Brand.ofSource
      let activeBrandId ← activeBrandId.text
      let activeThemeId ← activeThemeId.text
      return ⟨brands, activeBrandId, activeThemeId⟩
    | _ => none

/-- Reads a snapshot from its text. -/
def read (text : String) : Option Snapshot :=
  (Json.Source.ofString text).bind (ofSource Json.maxDepth)

end Snapshot

namespace Studio

/-- What is kept of the studio. -/
def snapshot (s : Studio) : Snapshot where
  brands := s.brands
  activeBrandId := (s.activeBrand?.map Brand.id).getD ""
  activeThemeId := (s.activeTheme?.map Theme.id).getD ""

/-- The studio of a snapshot. There must be a brand, and every brand must have a theme. Where there
is no brand or theme with the identifier of the active one, the first is active. -/
def ofSnapshot (s : Snapshot) : Except Refusal Studio :=
  if s.brands.isEmpty then .error .noBrands
  else match s.brands.find? fun b => b.themes.isEmpty with
    | some b => .error (.noThemes b.name)
    | none =>
      let brandIndex := (s.brands.findIdx? fun b => b.id == s.activeBrandId).getD 0
      let themes := (s.brands[brandIndex]?.map Brand.themes).getD []
      let themeIndex := (themes.findIdx? fun t => t.id == s.activeThemeId).getD 0
      .ok (openAt s.brands brandIndex themeIndex)

end Studio

end DesignSystem
