import DesignSystem.Json.Basic
import DesignSystem.Text.Cut
/-!
# Tokens

A token is a named design value: its text, its kind and perhaps a description. The text is either
a literal or an alias `{a.b.c}` of the token at another path, and becomes the value of a style
variable either as it stands or as a reference to the variable of that other token.
-/

namespace DesignSystem

/-- What every style variable's name begins with. -/
def variablePrefix : String :=
  "--ds-"

/-- The key of a scale's representative. -/
def defaultKey : String :=
  "DEFAULT"

namespace Token

/-! ### Kinds -/

/-- The kinds of design values. -/
inductive Kind where
  | color
  | dimension
  | fontFamily
  | fontWeight
  | number
  | shadow
  deriving DecidableEq

namespace Kind

/-- All kinds. -/
def all : List Kind :=
  [.color, .dimension, .fontFamily, .fontWeight, .number, .shadow]

/-- The name of a kind. -/
def name : Kind → String
  | .color => "color"
  | .dimension => "dimension"
  | .fontFamily => "fontFamily"
  | .fontWeight => "fontWeight"
  | .number => "number"
  | .shadow => "shadow"

/-- The kind of a name. -/
def ofName? (name : String) : Option Kind :=
  all.find? fun k => k.name == name

/-- The kind that a typographic role has. -/
def ofRole? (segment : String) : Option Kind :=
  if segment = "fontFamily" then some .fontFamily
  else if segment = "fontWeight" then some .fontWeight
  else if segment = "lineHeight" then some .number
  else if segment = "fontSize" ∨ segment = "letterSpacing" then some .dimension
  else none

/-- The kind expected of a token at a path. The first segment decides; under `typography` it is the
role nearest to the end of the path. -/
def infer (path : List String) : Kind :=
  match path.head? with
  | some first =>
    if first = "color" then .color
    else if first = "effect" then .shadow
    else if first = "typography" then (path.reverse.findSome? ofRole?).getD .dimension
    else .dimension
  | none => .dimension

end Kind

/-! ### Values -/

/-- The path of a token as an alias gives it. -/
structure Target where
  segments : List String
  deriving DecidableEq

namespace Target

/-- The target of a path whose segments are separated by dots. -/
def ofDotted (path : String) : Target :=
  ⟨Text.cut '.' path⟩

/-- The segments with dots between them. -/
def dotted (t : Target) : String :=
  Text.glue '.' t.segments

/-- The name of the style variable of the token. -/
def variableName (t : Target) : String :=
  variablePrefix ++ Text.glue '-' t.segments

/-- A reference to that variable. -/
def reference (t : Target) : String :=
  "var(" ++ t.variableName ++ ")"

/-- Whether the target is a scale's representative. -/
def isDefault (t : Target) : Bool :=
  t.segments.getLast? == some defaultKey

theorem dotted_ofDotted (path : String) : (ofDotted path).dotted = path :=
  Text.glue_cut '.' path

end Target

/-- What a token's text says. -/
inductive Value where
  | literal (text : String)
  | aliasTo (target : Target)
  deriving DecidableEq

namespace Value

/-- The text between an opening brace in front and a closing brace at the end. -/
def unbrace? (cs : List Char) : Option (List Char) :=
  match cs with
  | '\x7b' :: rest => if rest.getLast? = some '\x7d' then some rest.dropLast else none
  | _ => none

/-- A text is an alias if it consists of an opening brace, a path without braces that is not
empty, and a closing brace. Every other text is a literal. -/
def parse (raw : String) : Value :=
  match unbrace? raw.toList with
  | some inner =>
    if inner ≠ [] ∧ ¬inner.any (fun c => c == '\x7b' || c == '\x7d') then
      .aliasTo (Target.ofDotted (String.ofList inner))
    else .literal raw
  | none => .literal raw

/-- The text of a value. -/
def text : Value → String
  | .literal s => s
  | .aliasTo t => "\x7b" ++ t.dotted ++ "\x7d"

/-- The target of an alias. -/
def target? : Value → Option Target
  | .literal _ => none
  | .aliasTo t => some t

/-- Whether the value is an alias. -/
def isAlias (v : Value) : Bool :=
  v.target?.isSome

/-- The value of the style variable: a literal as it stands, an alias as one reference. -/
def style : Value → String
  | .literal s => s
  | .aliasTo t => t.reference

end Value

end Token

/-- A named design value. -/
structure Token where
  value : String
  kind : Token.Kind
  description : Option String
  deriving DecidableEq

namespace Token

/-- What the token's text says. -/
def parsed (t : Token) : Value :=
  Value.parse t.value

/-- The value of the token's style variable. -/
def style (t : Token) : String :=
  t.parsed.style

/-- The document of a token. -/
def toJson (t : Token) : Json :=
  .object <| [("value", .string t.value), ("type", .string t.kind.name)] ++
    match t.description with
    | some d => [("description", .string d)]
    | none => []

end Token

end DesignSystem
