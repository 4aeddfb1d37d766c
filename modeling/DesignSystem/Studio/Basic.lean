import DesignSystem.Studio.Brand
import DesignSystem.History
/-!
# The studio

The studio holds all brands, knows which theme of which brand is being edited, and keeps a history
of the trees of that theme. A change of the active theme starts a new history.

Every operation that marks a change takes the time of the change, and every operation that makes
something new takes its identifiers.
-/

namespace DesignSystem

/-- All brands, the positions of the active brand and of the active theme in it, and the history of
the active theme's tree. -/
structure Studio where
  brands : List Brand
  brandIndex : Nat
  themeIndex : Nat
  history : History Tree
  deriving DecidableEq

namespace Studio

/-- Why an operation of the studio is refused. -/
inductive Refusal where
  | unknownBrand (id : String)
  | unknownTheme (id : String)
  | lastBrand
  | lastTheme (brand : String)
  | unknownMode (name : String)
  | noBrands
  | noThemes (brand : String)
  deriving DecidableEq

/-- The text of a refusal. -/
def Refusal.message : Refusal → String
  | .unknownBrand id => "no brand with id '" ++ id ++ "'"
  | .unknownTheme id => "no theme with id '" ++ id ++ "' in the active brand"
  | .lastBrand => "cannot delete the only brand"
  | .lastTheme brand => "cannot delete the last theme of brand '" ++ brand ++ "'"
  | .unknownMode name => "unknown theme mode '" ++ name ++ "': expected light or dark"
  | .noBrands => "invalid snapshot: no brands"
  | .noThemes brand => "invalid snapshot: brand '" ++ brand ++ "' has no themes"

/-- The mode of a name. -/
def readMode (name : String) : Except Refusal Mode :=
  match Mode.ofName? name with
  | some m => .ok m
  | none => .error (.unknownMode name)

/-! ### Looking at the studio -/

/-- The active brand. -/
def activeBrand? (s : Studio) : Option Brand :=
  s.brands[s.brandIndex]?

/-- The active theme. -/
def activeTheme? (s : Studio) : Option Theme :=
  s.activeBrand?.bind fun b => b.themes[s.themeIndex]?

/-- The name of the active brand. -/
def activeBrandName (s : Studio) : String :=
  (s.activeBrand?.map Brand.name).getD ""

/-- The name of the active theme. -/
def activeThemeName (s : Studio) : String :=
  (s.activeTheme?.map Theme.name).getD ""

/-- The tree of the active theme. -/
def activeTokens (s : Studio) : Tree :=
  (s.activeTheme?.map Theme.tokens).getD Tree.empty

/-- The mode of the active theme. -/
def activeMode (s : Studio) : Mode :=
  (s.activeTheme?.map Theme.mode).getD .light

/-- The brand with an identifier. -/
def brand? (s : Studio) (id : String) : Option Brand :=
  s.brands.find? fun b => b.id == id

/-- The position of the brand with an identifier. -/
def indexOfBrand? (s : Studio) (id : String) : Option Nat :=
  s.brands.findIdx? fun b => b.id == id

/-- The position of the theme with an identifier in the active brand. -/
def indexOfTheme? (s : Studio) (id : String) : Option Nat :=
  s.activeBrand?.bind fun b => b.themes.findIdx? fun t => t.id == id

/-! ### Building blocks -/

/-- The studio with a history that holds nothing but the tree of the active theme. -/
def restart (s : Studio) : Studio :=
  { s with history := s.history.reset s.activeTokens }

/-- Makes the theme that shows `mode` in the brand at a position the active one. -/
def activate (s : Studio) (index : Nat) (mode : Mode) : Studio :=
  restart { s with
    brandIndex := index
    themeIndex := (s.brands[index]?.map fun b => b.indexForMode mode).getD 0 }

/-- The studio with the active brand changed by `f`. -/
def modifyBrand (s : Studio) (f : Brand → Brand) : Studio :=
  { s with brands := s.brands.modify s.brandIndex f }

/-- The studio with a tree in the active theme, outside the history. -/
def writeActive (s : Studio) (now : Instant) (tokens : Tree) : Studio :=
  s.modifyBrand fun b =>
    { b with themes := b.themes.modify s.themeIndex fun t => { t with tokens } }.touch now

/-- The studio with a new tree in the active theme. -/
def commit (s : Studio) (now : Instant) (tokens : Tree) : Studio :=
  { s with history := s.history.push tokens }.writeActive now tokens

/-! ### Making studios -/

/-- The name of the brand that a new studio has. -/
def defaultBrandName : String :=
  "Default"

/-- The studio with the given brands whose history begins with the active theme. -/
def openAt (brands : List Brand) (brandIndex themeIndex : Nat) : Studio :=
  restart ⟨brands, brandIndex, themeIndex, History.start Tree.empty History.defaultLimit⟩

/-- A new studio. -/
def create (ids : Brand.Ids) (now : Instant) : Studio :=
  openAt [Brand.create ids now defaultBrandName "The built-in design system"] 0 0

/-! ### Operations on brands -/

/-- Adds a brand and makes it the active one; the mode stays. -/
def createBrand (s : Studio) (ids : Brand.Ids) (now : Instant) (name description : String) :
    Studio :=
  { s with brands := s.brands ++ [Brand.create ids now name description] }.activate
    s.brands.length s.activeMode

/-- Deletes a brand, but never the only one. If it is the active one, the first of the others
becomes active and the mode stays. -/
def deleteBrand (s : Studio) (id : String) : Except Refusal Studio :=
  match s.indexOfBrand? id with
  | none => .error (.unknownBrand id)
  | some i =>
    if s.brands.length = 1 then .error .lastBrand
    else
      let rest := { s with brands := s.brands.eraseIdx i }
      if i = s.brandIndex then .ok (rest.activate 0 s.activeMode)
      else if i < s.brandIndex then .ok { rest with brandIndex := s.brandIndex - 1 }
      else .ok rest

/-- Gives a brand another name. -/
def renameBrand (s : Studio) (now : Instant) (id name : String) : Except Refusal Studio :=
  match s.indexOfBrand? id with
  | none => .error (.unknownBrand id)
  | some i => .ok { s with brands := s.brands.modify i fun b => { b with name }.touch now }

/-- Makes a brand the active one; the mode stays. -/
def selectBrand (s : Studio) (id : String) : Except Refusal Studio :=
  match s.indexOfBrand? id with
  | none => .error (.unknownBrand id)
  | some i => .ok (s.activate i s.activeMode)

/-! ### Operations on themes of the active brand -/

/-- Adds a theme with the tree of the active one. -/
def addTheme (s : Studio) (id : String) (now : Instant) (name : String) (mode : Mode) : Studio :=
  s.modifyBrand fun b =>
    Brand.touch { b with themes := b.themes ++ [⟨id, name, mode, s.activeTokens⟩] } now

/-- Deletes a theme, but never the last one. If it is the active one, a theme of the same mode or
else the first becomes active. -/
def deleteTheme (s : Studio) (now : Instant) (id : String) : Except Refusal Studio :=
  match s.indexOfTheme? id, s.activeBrand? with
  | some i, some b =>
    if b.themes.length = 1 then .error (.lastTheme b.name)
    else
      let rest := s.modifyBrand fun b => { b with themes := b.themes.eraseIdx i }.touch now
      if i = s.themeIndex then .ok (rest.activate s.brandIndex s.activeMode)
      else if i < s.themeIndex then .ok { rest with themeIndex := s.themeIndex - 1 }
      else .ok rest
  | _, _ => .error (.unknownTheme id)

/-- Makes a theme the active one. -/
def selectTheme (s : Studio) (id : String) : Except Refusal Studio :=
  match s.indexOfTheme? id with
  | none => .error (.unknownTheme id)
  | some i => .ok (restart { s with themeIndex := i })

/-- Makes the theme that shows a mode the active one. -/
def switchMode (s : Studio) (mode : Mode) : Studio :=
  s.activate s.brandIndex mode

/-! ### Operations on tokens -/

/-- Sets the text of a token of the active theme. Nothing happens if that leaves the tree as it
is. -/
def update? (s : Studio) (now : Instant) (path value : String) : Option Studio :=
  let tokens := s.activeTokens.set path value
  if tokens = s.activeTokens then none else some (s.commit now tokens)

/-- Replaces the tree of the active theme. -/
def replaceTokens (s : Studio) (now : Instant) (tokens : Tree) : Studio :=
  s.commit now tokens

/-- A theme with a patch merged into its tree. A dark theme stays dark. -/
def patchTheme (patch : Tree) (t : Theme) : Theme :=
  let merged := t.tokens.merge patch
  { t with tokens := match t.mode with
    | .light => merged
    | .dark => merged.darken }

/-- Merges a patch into every theme of the active brand. The history keeps the active theme's part
of it. -/
def applySuggestion (s : Studio) (now : Instant) (patch : Tree) : Studio :=
  let patched := s.modifyBrand fun b =>
    { b with themes := b.themes.map (patchTheme patch) }.touch now
  { patched with history := s.history.push patched.activeTokens }

/-- Applies what a suggester proposes for a description, if it proposes something. -/
def suggest? (s : Studio) (now : Instant) (suggester : String → Option Tree)
    (description : String) : Option Studio :=
  (suggester description).map (s.applySuggestion now)

/-- Takes back the latest change of the active theme, if there is one. -/
def undo? (s : Studio) (now : Instant) : Option Studio :=
  s.history.undo?.map fun h => { s with history := h }.writeActive now h.present

/-- Brings back the change taken back last, if there is one. -/
def redo? (s : Studio) (now : Instant) : Option Studio :=
  s.history.redo?.map fun h => { s with history := h }.writeActive now h.present

end Studio

end DesignSystem
