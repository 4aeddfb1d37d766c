import DesignSystem.Json.Basic
/-!
# Values in templates

What the expressions of a template stand for: the values of a document, values that are not there,
integers of any size, the position in a loop, and the functions that every template knows. Every
value counts as true or false, and some have items, fields or members.
-/

namespace DesignSystem.Template

/-- A number: an integer or a floating-point number. -/
inductive Number where
  | int (value : Int)
  | float (value : Binary64)

/-- The functions that every template knows. -/
inductive Function where
  | range
  | dict
  | debug
  | names
  deriving DecidableEq

/-- A value. A loop is seen from the item at `index` of `count` items, with the items beside it. -/
inductive Value where
  | undefined
  | null
  | bool (value : Bool)
  | number (value : Number)
  | text (value : String)
  | list (items : List Value)
  | map (entries : List (String × Value))
  | loop (index count : Nat) (previous next : Value)
  | function (function : Function)

/-- The kinds of values. -/
inductive Kind where
  | undefined
  | null
  | bool
  | number
  | text
  | list
  | map
  | other
  deriving DecidableEq

namespace Value

instance : Inhabited Value := ⟨undefined⟩

/-- The kind of a value. -/
def kind : Value → Kind
  | undefined => .undefined
  | null => .null
  | bool _ => .bool
  | number _ => .number
  | text _ => .text
  | list _ => .list
  | map _ => .map
  | loop .. | function _ => .other

/-- A natural number as a value. -/
def ofNat (n : Nat) : Value :=
  .number (.int n)

/-! ### Documents as values -/

/-- The number of a document. -/
def ofNumber : Json.Number → Number
  | .int value _ => .int value
  | .float value => .float value

mutual

/-- A document as a value. -/
def ofJson : Json → Value
  | .null => .null
  | .bool b => .bool b
  | .number n => .number (ofNumber n)
  | .string s => .text s
  | .array items => .list (ofItems items)
  | .object entries => .map (ofEntries entries)

/-- The items of an array as values. -/
def ofItems : List Json → List Value
  | [] => []
  | j :: rest => ofJson j :: ofItems rest

/-- The entries of an object as values. -/
def ofEntries : List (String × Json) → List (String × Value)
  | [] => []
  | (k, j) :: rest => (k, ofJson j) :: ofEntries rest

end

/-! ### Questions about values -/

/-- Whether a value is not there. -/
def isUndefined (v : Value) : Bool :=
  v.kind == .undefined

/-- Whether a value counts as true. -/
def isTrue : Value → Bool
  | undefined | null => false
  | bool b => b
  | number (.int i) => i != 0
  | number (.float x) => !x.isZero
  | text s => s != ""
  | list items => !items.isEmpty
  | map entries => !entries.isEmpty
  | loop .. | function _ => true

/-- The items that a loop runs over: those of a list, the keys of a map, the characters of a text,
and none for null. -/
def items? : Value → Option (List Value)
  | list items => some items
  | map entries => some (entries.map fun e => text e.1)
  | text s => some (s.toList.map fun c => text (String.singleton c))
  | null => some []
  | undefined | bool _ | number _ | loop .. | function _ => none

/-- What a loop says about itself under a name. -/
def loopField (index count : Nat) (previous next : Value) (name : String) : Value :=
  match name with
  | "first" => bool (index == 0)
  | "last" => bool (index + 1 == count)
  | "index" => ofNat (index + 1)
  | "index0" => ofNat index
  | "revindex" => ofNat (count - index)
  | "revindex0" => ofNat (count - index - 1)
  | "length" => ofNat count
  | "depth" => ofNat 1
  | "depth0" => ofNat 0
  | "previtem" => previous
  | "nextitem" => next
  | _ => undefined

/-- The entry of a map or the field of a loop under a name. -/
def field (v : Value) (name : String) : Value :=
  match v with
  | map entries => (Keyed.get? entries name).getD undefined
  | loop index count previous next => loopField index count previous next name
  | _ => undefined

/-- The item of a list at a position, which counts from the end if it is negative. -/
def itemAt (items : List Value) (i : Int) : Value :=
  let position := if 0 ≤ i then i else i + items.length
  if 0 ≤ position then (items[position.toNat]?).getD undefined else undefined

/-- What stands in brackets after a value: a position in a list or text, or the name of a field. -/
def item (v key : Value) : Value :=
  match v, key with
  | list items, number (.int i) => itemAt items i
  | text s, number (.int i) => itemAt (s.toList.map fun c => text (String.singleton c)) i
  | v, text name => v.field name
  | _, _ => undefined

end Value

end DesignSystem.Template
