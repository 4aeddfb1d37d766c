import DesignSystem.Palette
import DesignSystem.Tree.Alias
import DesignSystem.Text.Blank
/-!
# The schema of trees

A complete tree has all scales, roles and groups, tokens of the kinds that their paths call for,
well-formed color literals, and aliases that lead to a literal. Checking a tree lists what is
wrong with it; the tree conforms if the list is empty.
-/

namespace DesignSystem

/-- Something wrong with a tree. -/
inductive Problem where
  | missingScale
  | missingStep
  | literalDefault
  | missingRole
  | missingGroup
  | wrongKind (expected found : Token.Kind)
  | malformedColor (literal : String)
  | aliasToDefault (target : Token.Target)
  | brokenAlias (error : Tree.AliasError)
  deriving DecidableEq

/-- The text of a problem. -/
def Problem.message : Problem → String
  | .missingScale => "required color scale is missing"
  | .missingStep => "required scale step is missing"
  | .literalDefault => "scale DEFAULT should alias one of the scale's steps"
  | .missingRole => "required semantic token is missing"
  | .missingGroup => "required group is missing"
  | .wrongKind expected found =>
    "expected type '" ++ expected.name ++ "', found '" ++ found.name ++ "'"
  | .malformedColor literal => "'" ++ literal ++ "' is not a valid hex color"
  | .aliasToDefault target =>
    "alias to '" ++ target.dotted ++ "' flattens to " ++ target.reference ++
      ", which is never emitted; alias the scale step instead"
  | .brokenAlias (.unresolved _ target) =>
    "alias chain reaches '" ++ target ++ "', which is not a token"
  | .brokenAlias error => error.message

/-- A problem at a path. -/
structure Issue where
  path : String
  problem : Problem
  deriving DecidableEq

/-- The text of an issue with its path. -/
def Issue.describe (i : Issue) : String :=
  i.path ++ ": " ++ i.problem.message

namespace Schema

/-- The groups of a complete tree besides the color scales. -/
def groups : List String :=
  ["geometry.spacing", "geometry.border", "geometry.radius", "typography.fontFamily",
    "typography.fontSize", "typography.fontWeight", "typography.lineHeight", "effect.shadow"]

/-- The members of the root whose tokens have a kind given by their path. -/
def typedGroups : List String :=
  ["color", "geometry", "typography", "effect"]

/-- The token among the members of a group under a key. -/
def memberToken? (members : Keyed Tree.Node) (key : String) : Option Token :=
  (Keyed.get? members key).bind Tree.Node.asToken?

/-- What is wrong with a color scale. -/
def scaleIssues (t : Tree) (scale : String) : List Issue :=
  let path := "color." ++ scale
  match t.group? path with
  | none => [⟨path, .missingScale⟩]
  | some members =>
    ((Palette.steps ++ [defaultKey]).filter fun step => (memberToken? members step).isNone).map
        (fun step => ⟨path ++ "." ++ step, .missingStep⟩) ++
      match memberToken? members defaultKey with
      | some token =>
        if token.parsed.isAlias then [] else [⟨path ++ "." ++ defaultKey, .literalDefault⟩]
      | none => []

/-- What a tree lacks of scales, roles and groups. -/
def structureIssues (t : Tree) : List Issue :=
  Palette.scales.flatMap (scaleIssues t) ++
    ((Palette.roles.map ("color." ++ ·)).filter fun path => (t.token? path).isNone).map
      (⟨·, .missingRole⟩) ++
    (groups.filter fun path => (t.group? path).isNone).map (⟨·, .missingGroup⟩)

/-- A hexadecimal digit in either case. -/
def isHexDigit (c : Char) : Bool :=
  c.isDigit || ('a' ≤ c && c ≤ 'f') || ('A' ≤ c && c ≤ 'F')

/-- Whether a literal may stand for a color. After a hash sign come three, four, six or eight
hexadecimal digits; anything else that is not blank passes. -/
def isColor (literal : String) : Bool :=
  match (Text.trim literal).toList with
  | [] => false
  | '#' :: digits => [3, 4, 6, 8].contains digits.length && digits.all isHexDigit
  | _ => true

/-- What is wrong with the kind of a token at a path. -/
def kindIssues (path : String) (token : Token) : List Issue :=
  let segments := Text.cut '.' path
  let expected := Token.Kind.infer segments
  if (segments.head?.map typedGroups.contains).getD false ∧ token.kind ≠ expected then
    [⟨path, .wrongKind expected token.kind⟩]
  else []

/-- What is wrong with the value of a token at a path. -/
def valueIssues (t : Tree) (path : String) (token : Token) : List Issue :=
  match token.parsed with
  | .literal text =>
    if token.kind = .color ∧ ¬isColor text then [⟨path, .malformedColor text⟩] else []
  | .aliasTo target =>
    (if target.isDefault then [⟨path, .aliasToDefault target⟩] else []) ++
      match t.resolve path with
      | .ok _ => []
      | .error error => [⟨path, .brokenAlias error⟩]

/-- What is wrong with the tokens of a tree. -/
def tokenIssues (t : Tree) : List Issue :=
  t.tokens.flatMap fun (path, token) => kindIssues path token ++ valueIssues t path token

end Schema

/-- All that is wrong with a tree. -/
def Tree.issues (t : Tree) : List Issue :=
  Schema.structureIssues t ++ Schema.tokenIssues t

end DesignSystem
