import DesignSystem.Template.Syntax
import DesignSystem.Text.Case
/-!
# Filters, tests and functions

A filter makes a value of a value, a test asks a question about one, a function makes a value of
nothing but its arguments, and a loop can be asked for one of its arguments in turn. Arguments that
are left out, or null, take a default.
-/

namespace DesignSystem.Template

/-! ### Arguments -/

/-- The arguments in parentheses: those without a name come first. -/
structure Arguments where
  plain : List Value
  named : List (String × Value)

namespace Arguments

/-- Whether there are none. -/
def isEmpty (args : Arguments) : Bool :=
  args.plain.isEmpty && args.named.isEmpty

/-- The values of parameters, given in order or, after those, by name; null for one that is left
out. An argument too many or of an unknown name is unsuitable. -/
def take (args : Arguments) (names : List String) : Except Error (List Value) :=
  let rest := names.drop args.plain.length
  if args.plain.length ≤ names.length ∧ args.named.all fun a => rest.contains a.1 then
    .ok (args.plain ++ rest.map fun name => (args.named.lookup name).getD .null)
  else .error .unsuitable

/-- The value of a single parameter without a name, which must be defined; null if it is left
out. -/
def takeOne (args : Arguments) : Except Error Value :=
  match args.plain, args.named with
  | [], [] => .ok .null
  | [v], [] => if v.isUndefined then .error .undefined else .ok v
  | _, _ => .error .unsuitable

end Arguments

namespace Value

/-- The integer that a value counts as. -/
def asInt? (v : Value) : Option Int :=
  match v.asNumber? with
  | some n => if n.ratio.1 % n.ratio.2 = 0 then some (n.ratio.1 / n.ratio.2) else none
  | none => none

/-- A number of places, `default` if the value is null. -/
def widthOr (default : Nat) : Value → Except Error Nat
  | undefined => .error .undefined
  | null => .ok default
  | v => match v.asInt? with
    | some (.ofNat n) => .ok n
    | _ => .error .unsuitable

/-- A switch, which is off if the value is null. -/
def switch : Value → Except Error Bool
  | undefined => .error .undefined
  | null => .ok false
  | bool b => .ok b
  | _ => .error .unsuitable

/-- The items of a value. -/
def items (v : Value) : Except Error (List Value) :=
  match v.items? with
  | some items => .ok items
  | none => .error .notIterable

end Value

/-! ### Filters -/

/-- A text without one line end at its end. -/
def dropLineEnd (cs : List Char) : List Char :=
  let cs := if cs.getLast? = some '\n' then cs.dropLast else cs
  if cs.getLast? = some '\r' then cs.dropLast else cs

/-- How far lines are indented, and whether that goes for the first line and for blank lines. -/
structure Indentation where
  width : Nat
  first : Bool
  blank : Bool

/-- A line with spaces in front. -/
def Indentation.line (style : Indentation) (line : List Char) : List Char :=
  if line = [] ∧ !style.blank then [] else List.replicate style.width ' ' ++ line

/-- A text with its lines indented, without one line end at its end. -/
def indent (style : Indentation) (s : String) : String :=
  match (dropLineEnd s.toList).splitOn '\n' with
  | [] => ""
  | first :: rest =>
    let first := if style.first then style.line first else first
    String.ofList (dropLineEnd (['\n'].intercalate (first :: rest.map style.line) ++ ['\n']))

/-- A text without the characters of a set at either end. -/
def trimOf (set : List Char) (s : String) : String :=
  let start := s.toList.dropWhile set.contains
  String.ofList (start.reverse.dropWhile set.contains).reverse

/-- The texts of the items of a value with `sep` between neighbours; nothing for a value that is
not there. -/
def join (sep : String) (v : Value) : Except Error String :=
  if v.isUndefined then .ok "" else do return sep.intercalate ((← v.items).map Value.write)

/-- A value in reverse: a text character by character, all else item by item. -/
def reverse : Value → Except Error Value
  | .text s => .ok (.text (String.ofList s.toList.reverse))
  | v => do return .list (← v.items).reverse

/-- How many items a value has. -/
def count : Value → Except Error Value
  | .null => .error .notIterable
  | v => do return .ofNat (← v.items).length

/-- The entries of a map as lists of key and value. -/
def entries : Value → Except Error Value
  | .map entries => .ok (.list (entries.map fun (k, v) => .list [.text k, v]))
  | _ => .error .unsuitable

/-- The text of a value with its characters changed. -/
def changeText (change : List Char → List Char) (v : Value) : Except Error Value :=
  .ok (.text (String.ofList (change v.write.toList)))

/-- The filter of a name, if it takes no arguments. -/
def plainFilter? (name : String) : Option (Value → Except Error Value) :=
  match name with
  | "pascal" => some fun v => .ok (.text (Text.pascalCase v.write))
  | "kebab" => some fun v => .ok (.text (Text.kebabCase v.write))
  | "upper" => some (changeText fun cs => cs.map Char.toUpper)
  | "lower" => some (changeText fun cs => cs.map Char.toLower)
  | "capitalize" => some (changeText Text.capitalize)
  | "string" | "safe" => some (changeText id)
  | "length" | "count" => some count
  | "first" => some fun v => do return (← v.items).head?.getD .undefined
  | "last" => some fun v => do return (← v.items).getLast?.getD .undefined
  | "list" => some fun v => do return .list (← v.items)
  | "items" => some entries
  | "reverse" => some reverse
  | _ => none

/-- The value that a filter makes of a defined value. -/
def filterDefined (name : String) (v : Value) (args : Arguments) : Except Error Value :=
  match name with
  | "trim" => do match ← args.takeOne with
    | .null => return .text (Text.trim v.write)
    | set => return .text (trimOf set.write.toList v.write)
  | "indent" => do match ← args.take ["width", "first", "blank"] with
    | [width, first, blank] =>
      return .text (indent ⟨← width.widthOr 4, ← first.switch, ← blank.switch⟩ v.write)
    | _ => .error .unsuitable
  | name => match plainFilter? name with
    | some f => if args.isEmpty then f v else .error .unsuitable
    | none => .error (.unknownFilter name)

/-- The value of `default`: the first argument for a value that is not there and, if the second
argument says so, for one that counts as false. -/
def fallback (v : Value) (args : Arguments) : Except Error Value :=
  match args.plain, args.named with
  | [], [] => .ok (if v.isUndefined then .text "" else v)
  | [other], [] => .ok (if v.isUndefined then other else v)
  | [other, lax], [] => do return if v.isUndefined || (← lax.switch) && !v.isTrue then other else v
  | _, _ => .error .unsuitable

/-- The value that a filter makes of a value. Only `join` and `default` take one that is not
there. -/
def applyFilter (name : String) (v : Value) (args : Arguments) : Except Error Value :=
  match name with
  | "join" => do match ← args.takeOne with
    | .null => return .text (← join "" v)
    | sep => return .text (← join sep.write v)
  | "default" | "d" => fallback v args
  | name => if v.isUndefined then .error .undefined else filterDefined name v args

/-! ### Tests -/

/-- The test of a name, if it takes no argument. -/
def plainTest? (name : String) : Option (Value → Bool) :=
  match name with
  | "undefined" => some fun v => v.kind == .undefined
  | "defined" => some fun v => v.kind != .undefined
  | "none" => some fun v => v.kind == .null
  | "boolean" => some fun v => v.kind == .bool
  | "true" => some fun v => v.kind == .bool && v.isTrue
  | "false" => some fun v => v.kind == .bool && !v.isTrue
  | "number" => some fun v => v.kind == .number
  | "string" => some fun v => v.kind == .text
  | "sequence" => some fun v => v.kind == .list
  | "mapping" => some fun v => v.kind == .map
  | "iterable" => some fun v => v.kind == .text || v.kind == .list || v.kind == .map
  | "odd" => some fun v => v.asInt?.any fun i => i % 2 != 0
  | "even" => some fun v => v.asInt?.any fun i => i % 2 == 0
  | _ => none

/-- The test of a name that compares with an argument. -/
def comparison? (name : String) : Option Comparison :=
  match name with
  | "eq" | "equalto" => some .equal
  | "ne" => some .unequal
  | "lt" | "lessthan" => some .less
  | "le" => some .lessOrEqual
  | "gt" | "greaterthan" => some .greater
  | "ge" => some .greaterOrEqual
  | "in" => some .within
  | _ => none

/-- The answer of a comparison. -/
def Comparison.ask (c : Comparison) (v w : Value) : Except Error Bool :=
  match c.holds? v w with
  | some b => .ok b
  | none => .error .unsuitable

/-- The answer of a test. -/
def askTest (name : String) (v : Value) (args : List Value) : Except Error Bool :=
  match args, plainTest? name, comparison? name with
  | [], some p, _ => .ok (p v)
  | [w], _, some c => c.ask v w
  | _, none, none => .error (.unknownTest name)
  | _, _, _ => .error .unsuitable

/-! ### Functions -/

/-- How many integers a range may have. -/
def maxRange : Nat :=
  100000

/-- The integers from `start` on, `step` apart, that lie before `stop`. -/
def range (start stop step : Int) : Except Error Value :=
  let size := (if 0 < step then (stop - start + step - 1) / step
    else (start - stop - step - 1) / -step).toNat
  if step = 0 ∨ maxRange < size then .error .unsuitable
  else .ok (.list ((List.range size).map fun (k : Nat) =>
    .number (.int (start + step * k))))

/-- The value that a function makes of its arguments. -/
def callFunction (f : Function) (args : Arguments) : Except Error Value :=
  match f, args.plain.map Value.asInt?, args.named with
  | .range, [some stop], [] => range 0 stop 1
  | .range, [some start, some stop], [] => range start stop 1
  | .range, [some start, some stop, some step], [] => range start stop step
  | .dict, [], named => .ok (.map (Keyed.ofList named))
  | _, _, _ => .error .unsuitable

/-- The value of a method of a value: a loop takes the arguments of `cycle` in turn. -/
def callMethod (v : Value) (name : String) (args : Arguments) : Except Error Value :=
  match v, name, args.named with
  | .loop index .., "cycle", [] => match args.plain[index % args.plain.length]? with
    | some w => .ok w
    | none => .error .unsuitable
  | _, _, _ => .error .unsuitable

end DesignSystem.Template
