import DesignSystem.Template.Comparison
/-!
# Templates

A template is a text with gaps. An expression in a gap is printed, and tags choose between parts
of the text or repeat a part for every item of a list.
-/

namespace DesignSystem.Template

/-- An expression. Where values are passed on in parentheses, the last ones may have names, which
`keys` lists. -/
inductive Expr where
  | literal (value : Value)
  | variable (name : String)
  | list (items : List Expr)
  | map (keys : List String) (values : List Expr)
  | field (base : Expr) (name : String)
  | item (base key : Expr)
  | call (callee : Expr) (args : List Expr) (keys : List String)
  | filter (base : Expr) (name : String) (args : List Expr) (keys : List String)
  | test (base : Expr) (name : String) (args : List Expr)
  | opposite (operand : Expr)
  | concat (left right : Expr)
  | compare (comparison : Comparison) (left right : Expr)
  | negate (operand : Expr)
  | both (left right : Expr)
  | either (left right : Expr)
  | conditional (condition yes no : Expr)

/-- What the items of a loop are called: one name for an item, or a name for each of its parts. -/
inductive Target where
  | whole (name : String)
  | parts (names : List String)

/-- A part of a template. -/
inductive Part where
  | text (text : String)
  | print (value : Expr)
  | choice (condition : Expr) (yes no : List Part)
  | each (target : Target) (items condition : Expr) (body otherwise : List Part)

/-- Why a template is not filled. -/
inductive Error where
  | missingTemplate (name : String)
  | malformed
  | undefined
  | unknownFilter (name : String)
  | unknownTest (name : String)
  | unsuitable
  | notIterable
  deriving DecidableEq

end DesignSystem.Template

namespace DesignSystem

/-- A template. -/
abbrev Template : Type :=
  List Template.Part

end DesignSystem
