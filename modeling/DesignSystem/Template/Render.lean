import DesignSystem.Template.Filter
/-!
# Filling templates

Rendering a template against a document gives a text. A name or a field that is not there is
undefined; to look at something undefined in any way other than comparing it is an error. In a
loop `loop` tells the position.
-/

namespace DesignSystem.Template

/-! ### Names -/

/-- The values of names. -/
abbrev Scope := List (String × Value)

/-- The values of the names that every template knows. -/
def globalScope : Scope :=
  [("range", .function .range), ("dict", .function .dict), ("debug", .function .debug),
    ("namespace", .function .names)]

/-- The value of a name. -/
def Scope.value (scope : Scope) (name : String) : Value :=
  match scope.lookup name with
  | some v => v
  | none => (globalScope.lookup name).getD .undefined

/-- The names that a document gives to a template. -/
def scopeOf : Json → Scope
  | .object entries => Value.ofEntries entries
  | _ => []

/-! ### Evaluation -/

/-- A value that must be defined. -/
def Value.defined : Value → Except Error Value
  | undefined => .error .undefined
  | v => .ok v

/-- Whether a value that must be defined counts as true. -/
def Value.decide (v : Value) : Except Error Bool := do
  return (← v.defined).isTrue

/-- The arguments of values, the last of which have the given names. -/
def Arguments.ofValues (values : List Value) (names : List String) : Arguments :=
  let count := values.length - names.length
  ⟨values.take count, names.zip (values.drop count)⟩

/-- The number with the other sign. -/
def Number.opposite : Number → Number
  | int i => int (-i)
  | float x => float (x.withSign !x.negative)

mutual

/-- The value of an expression. -/
def eval (scope : Scope) : Expr → Except Error Value
  | .literal v => .ok v
  | .variable name => .ok (scope.value name)
  | .list items => do return .list (← evalAll scope items)
  | .map keys values => do return .map (Keyed.ofList (keys.zip (← evalAll scope values)))
  | .field base name => do
    let v ← (← eval scope base).defined
    return v.field name
  | .item base key => do
    let v ← (← eval scope base).defined
    return v.item (← eval scope key)
  | .call (.field base name) args keys => do
    let v ← (← eval scope base).defined
    let args ← evalAll scope args
    callMethod v name (.ofValues args keys)
  | .call callee args keys => do
    let v ← eval scope callee
    let args ← evalAll scope args
    match v with
    | .function f => callFunction f (.ofValues args keys)
    | _ => .error .unsuitable
  | .filter base name args keys => do
    let v ← eval scope base
    let args ← evalAll scope args
    applyFilter name v (.ofValues args keys)
  | .test base name args => do
    let v ← eval scope base
    let args ← evalAll scope args
    return .bool (← askTest name v args)
  | .opposite operand => do
    match ← (← eval scope operand).defined with
    | .number n => return .number n.opposite
    | _ => .error .unsuitable
  | .concat left right => do
    let v ← (← eval scope left).defined
    let w ← (← eval scope right).defined
    return .text (v.write ++ w.write)
  | .compare comparison left right => do
    let v ← eval scope left
    let w ← eval scope right
    return .bool (← comparison.ask v w)
  | .negate operand => do
    return .bool !(← (← eval scope operand).decide)
  | .both left right => do
    let v ← eval scope left
    if ← v.decide then eval scope right else return v
  | .either left right => do
    let v ← eval scope left
    if ← v.decide then return v else eval scope right
  | .conditional condition yes no => do
    if ← (← eval scope condition).decide then eval scope yes else eval scope no

/-- The values of expressions. -/
def evalAll (scope : Scope) : List Expr → Except Error (List Value)
  | [] => .ok []
  | e :: rest => do
    let v ← eval scope e
    let vs ← evalAll scope rest
    return v :: vs

end

/-! ### Parts -/

/-- The names of a loop's target with their values for an item. -/
def Target.bind (target : Target) (v : Value) : Except Error Scope :=
  match target, v with
  | whole name, v => .ok [(name, v)]
  | parts names, .list items =>
    if names.length = items.length then .ok (names.zip items) else .error .unsuitable
  | parts _, _ => .error .unsuitable

/-- The names of an item with their values, if the condition of the loop holds for it. -/
def admitted? (scope : Scope) (target : Target) (condition : Expr) (v : Value) :
    Except Error (Option (Scope × Value)) := do
  let names ← target.bind v
  if ← (← eval (names ++ scope) condition).decide then return some (names, v) else return none

/-- The position of item `index` among all items. -/
def positionOf (items : List Value) (index : Nat) : Value :=
  .loop index items.length
    (if index = 0 then .undefined else items[index - 1]?.getD .undefined)
    (items[index + 1]?.getD .undefined)

/-- The scopes in which the body of a loop is filled, one for each admitted item. -/
def loopScopes (scope : Scope) (admitted : List (Scope × Value)) : List Scope :=
  let items := admitted.map Prod.snd
  admitted.zipIdx.map fun ((names, _), i) => names ++ ("loop", positionOf items i) :: scope

mutual

/-- The text of a part. -/
def renderPart (scope : Scope) : Part → Except Error String
  | .text s => .ok s
  | .print e => do
    let v ← (← eval scope e).defined
    return v.write
  | .choice condition yes no => do
    if ← (← eval scope condition).decide then renderParts scope yes else renderParts scope no
  | .each target items condition body otherwise => do
    let items ← (← (← eval scope items).defined).items
    match (← items.mapM (admitted? scope target condition)).filterMap id with
    | [] => renderParts scope otherwise
    | admitted =>
      let texts ← (loopScopes scope admitted).mapM fun scope => renderParts scope body
      return String.join texts

/-- The text of parts one after the other. -/
def renderParts (scope : Scope) : List Part → Except Error String
  | [] => .ok ""
  | p :: rest => do
    let s ← renderPart scope p
    let more ← renderParts scope rest
    return s ++ more

end

/-- The text of a template filled with a document. -/
def render (t : Template) (data : Json) : Except Error String :=
  renderParts (scopeOf data) t

end DesignSystem.Template
