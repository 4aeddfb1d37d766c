import DesignSystem.Tree.Document
/-!
# The built-in design system

The scales, roles and measures of the built-in light tree, and the names that every complete tree
is expected to have.
-/

namespace DesignSystem

namespace Palette

/-- The steps of a color scale, lightest first. -/
def steps : List String :=
  ["50", "100", "200", "300", "400", "500", "600", "700", "800", "900", "950"]

/-- The step that represents a scale of the built-in trees. -/
def baseStep : String :=
  "500"

/-- The color scales of a complete tree. -/
def scales : List String :=
  ["primary", "secondary", "neutral", "success", "warning", "danger"]

/-- The color roles of a complete tree. -/
def roles : List String :=
  ["background", "surface", "text", "textMuted", "border"]

/-- Shades of slate, the built-in neutral scale. -/
def slateShades : List String :=
  ["#f8fafc", "#f1f5f9", "#e2e8f0", "#cbd5e1", "#94a3b8", "#64748b", "#475569", "#334155",
    "#1e293b", "#0f172a", "#020617"]

/-- Shades of blue. -/
def blueShades : List String :=
  ["#eff6ff", "#dbeafe", "#bfdbfe", "#93c5fd", "#60a5fa", "#3b82f6", "#2563eb", "#1d4ed8",
    "#1e40af", "#1e3a8a", "#172554"]

/-- Shades of violet. -/
def violetShades : List String :=
  ["#f5f3ff", "#ede9fe", "#ddd6fe", "#c4b5fd", "#a78bfa", "#8b5cf6", "#7c3aed", "#6d28d9",
    "#5b21b6", "#4c1d95", "#2e1065"]

/-- Shades of green. -/
def greenShades : List String :=
  ["#f0fdf4", "#dcfce7", "#bbf7d0", "#86efac", "#4ade80", "#22c55e", "#16a34a", "#15803d",
    "#166534", "#14532d", "#052e16"]

/-- Shades of amber. -/
def amberShades : List String :=
  ["#fffbeb", "#fef3c7", "#fde68a", "#fcd34d", "#fbbf24", "#f59e0b", "#d97706", "#b45309",
    "#92400e", "#78350f", "#451a03"]

/-- Shades of red. -/
def redShades : List String :=
  ["#fef2f2", "#fee2e2", "#fecaca", "#fca5a5", "#f87171", "#ef4444", "#dc2626", "#b91c1c",
    "#991b1b", "#7f1d1d", "#450a0a"]

/-- The shade of slate at a step. -/
def slate? (step : String) : Option String :=
  (steps.zip slateShades).lookup step

end Palette

namespace Tree

/-- A node whose groups are in key order. -/
abbrev Branch := { n : Node // n.Ordered }

namespace Branch

/-- A token without a description. -/
def leaf (kind : Token.Kind) (value : String) : Branch :=
  ⟨.token ⟨value, kind, none⟩, trivial⟩

/-- A token that refers to the token at a dotted path. -/
def aliasTo (kind : Token.Kind) (path : String) : Branch :=
  leaf kind ("\x7b" ++ path ++ "\x7d")

/-- A group of the given members. -/
def group (members : List (String × Branch)) : Branch :=
  ⟨.group (Keyed.ofList (members.map fun (key, b) => (key, b.1))), Node.ordered_group_ofList (by
    intro e he
    obtain ⟨⟨key, b⟩, _, rfl⟩ := List.mem_map.1 he
    exact b.2)⟩

/-- A group of tokens of one kind. -/
def leaves (kind : Token.Kind) (values : List (String × String)) : List (String × Branch) :=
  values.map fun (key, value) => (key, leaf kind value)

/-- A color scale with its shades and its representative. -/
def colorScale (name : String) (shades : List String) : String × Branch :=
  (name, group (leaves .color (Palette.steps.zip shades) ++
    [(defaultKey, aliasTo .color ("color." ++ name ++ "." ++ Palette.baseStep))]))

/-- The built-in colors. -/
def colors : Branch :=
  group [
    colorScale "primary" Palette.blueShades,
    colorScale "secondary" Palette.violetShades,
    colorScale "neutral" Palette.slateShades,
    colorScale "success" Palette.greenShades,
    colorScale "warning" Palette.amberShades,
    colorScale "danger" Palette.redShades,
    ("background", leaf .color "#ffffff"),
    ("surface", aliasTo .color "color.neutral.50"),
    ("surfaceMuted", aliasTo .color "color.neutral.100"),
    ("border", aliasTo .color "color.neutral.200"),
    ("borderStrong", aliasTo .color "color.neutral.300"),
    ("textMuted", aliasTo .color "color.neutral.500"),
    ("text", aliasTo .color "color.neutral.900"),
    ("onPrimary", leaf .color "#ffffff"),
    ("focusRing", aliasTo .color "color.primary.400")]

/-- The built-in measures. -/
def geometry : Branch :=
  group [
    ("spacing", group (leaves .dimension [
      ("0", "0"), ("1", "0.25rem"), ("2", "0.5rem"), ("3", "0.75rem"), ("4", "1rem"),
      ("5", "1.25rem"), ("6", "1.5rem"), ("8", "2rem"), ("10", "2.5rem"), ("12", "3rem"),
      ("16", "4rem")])),
    ("border", group [
      ("width", group (leaves .dimension [("thin", "1px"), ("thick", "2px")] ++
        [(defaultKey, aliasTo .dimension "geometry.border.width.thin")]))]),
    ("radius", group (leaves .dimension [
      ("none", "0"), ("sm", "0.125rem"), ("md", "0.375rem"), ("lg", "0.5rem"), ("xl", "0.75rem"),
      ("full", "9999px")] ++ [(defaultKey, aliasTo .dimension "geometry.radius.md")]))]

/-- A text variant: names of its family, size, weight and line height. -/
def textVariant (family size weight lineHeight : String) : Branch :=
  group [
    ("fontFamily", aliasTo .fontFamily ("typography.fontFamily." ++ family)),
    ("fontSize", aliasTo .dimension ("typography.fontSize." ++ size)),
    ("fontWeight", aliasTo .fontWeight ("typography.fontWeight." ++ weight)),
    ("lineHeight", aliasTo .number ("typography.lineHeight." ++ lineHeight))]

/-- The built-in type settings. -/
def typography : Branch :=
  group [
    ("fontFamily", group (leaves .fontFamily [
      ("sans", "Inter, ui-sans-serif, system-ui, sans-serif"),
      ("serif", "Georgia, ui-serif, serif"),
      ("mono", "'JetBrains Mono', ui-monospace, monospace")])),
    ("fontSize", group (leaves .dimension [
      ("xs", "0.75rem"), ("sm", "0.875rem"), ("base", "1rem"), ("lg", "1.125rem"),
      ("xl", "1.25rem"), ("2xl", "1.5rem"), ("3xl", "1.875rem")])),
    ("fontWeight", group (leaves .fontWeight [
      ("normal", "400"), ("medium", "500"), ("semibold", "600"), ("bold", "700")])),
    ("lineHeight", group (leaves .number [
      ("tight", "1.25"), ("normal", "1.5"), ("relaxed", "1.75")])),
    ("variants", group [
      ("heading", textVariant "sans" "2xl" "bold" "tight"),
      ("body", textVariant "sans" "base" "normal" "normal"),
      ("label", textVariant "sans" "sm" "medium" "normal"),
      ("caption", textVariant "sans" "xs" "normal" "normal"),
      ("code", textVariant "mono" "sm" "normal" "relaxed")])]

/-- The built-in shadows. -/
def effects : Branch :=
  group [
    ("shadow", group (leaves .shadow [
      ("sm", "0 1px 2px 0 rgb(0 0 0 / 0.05)"),
      ("md", "0 4px 6px -1px rgb(0 0 0 / 0.1), 0 2px 4px -2px rgb(0 0 0 / 0.1)"),
      ("lg", "0 10px 15px -3px rgb(0 0 0 / 0.1), 0 4px 6px -4px rgb(0 0 0 / 0.1)"),
      ("xl", "0 20px 25px -5px rgb(0 0 0 / 0.1), 0 8px 10px -6px rgb(0 0 0 / 0.1)")] ++
      [(defaultKey, aliasTo .shadow "effect.shadow.md")]))]

end Branch

/-- The tree of the given members of the root. -/
def ofBranches (members : List (String × Branch)) : Tree :=
  ⟨Keyed.ofList (members.map fun (key, b) => (key, b.1)), (Node.ordered_group_ofList (by
    intro e he
    obtain ⟨⟨key, b⟩, _, rfl⟩ := List.mem_map.1 he
    exact b.2))⟩

/-- The built-in light tree. -/
def light : Tree :=
  ofBranches [
    ("color", Branch.colors),
    ("geometry", Branch.geometry),
    ("typography", Branch.typography),
    ("effect", Branch.effects)]

end Tree

end DesignSystem
