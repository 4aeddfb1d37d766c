import DesignSystem.Yaml.Basic
import DesignSystem.Json.Source
import DesignSystem.Text.Cut
/-!
# Plain scalars

What a scalar without quotes denotes. Null, booleans and numbers each have a fixed set of spellings,
and every other text is a string. An integer past the word range is refused up to `2 ^ 128` and a
floating-point number from there on.
-/

namespace DesignSystem.Yaml.Scalar

/-- The spellings of null. -/
def isNull (s : String) : Bool :=
  ["null", "Null", "NULL", "~"].contains s

/-- The spellings of the booleans. -/
def bool? (s : String) : Option Bool :=
  if ["true", "True", "TRUE"].contains s then some true
  else if ["false", "False", "FALSE"].contains s then some false
  else none

/-- Digits in a base, at least one and nothing else. -/
def digits? (base : Nat) (cs : List Char) : Option Nat :=
  match cs with
  | [] => none
  | _ => cs.foldlM (fun acc c => match Json.hexValue? c with
      | some d => if d < base then some (acc * base + d) else none
      | none => none) 0

/-- Whether the text has a leading zero and only digits after it, sign aside. Such a text is not a
number. -/
def hasLeadingZero (cs : List Char) : Bool :=
  let cs := match cs with
    | '-' :: rest | '+' :: rest => rest
    | _ => cs
  match cs with
  | '0' :: c :: rest => (c :: rest).all fun c => (Json.digit? c).isSome
  | _ => false

/-- An integer with an optional sign, in base ten or after `0x`, `0o` or `0b`. -/
def int? (cs : List Char) : Option Int :=
  let based (cs : List Char) : Option Nat := match cs with
    | '0' :: 'x' :: ds => digits? 16 ds
    | '0' :: 'o' :: ds => digits? 8 ds
    | '0' :: 'b' :: ds => digits? 2 ds
    | _ => none
  let ten (ds : List Char) : Option Nat := if hasLeadingZero cs then none else digits? 10 ds
  match cs with
  | '-' :: ds => ((based ds).orElse fun _ => ten ds).map fun (n : Nat) => -(n : Int)
  | '+' :: ds => ((based ds).orElse fun _ => ten ds).map fun (n : Nat) => (n : Int)
  | ds => ((based ds).orElse fun _ => ten ds).map fun (n : Nat) => (n : Int)

/-- A number in base ten with an optional fraction and exponent. A point may lead or trail. -/
def decimal? (negative : Bool) (cs : List Char) : Option Binary64 :=
  let (whole, cs) := Json.digitRun cs
  let (fraction, cs) := match cs with
    | '.' :: cs => Json.digitRun cs
    | _ => ([], cs)
  let exponent : Option Int := match cs with
    | [] => some 0
    | c :: cs =>
      if c = 'e' ∨ c = 'E' then
        (Json.exponentOf cs).map fun (negative, ds) =>
          let n : Nat := ds.foldl (fun acc d => acc * 10 + d) 0
          if negative then -(n : Int) else (n : Int)
      else none
  match whole ++ fraction, exponent with
  | [], _ | _, none => none
  | ds, some e =>
    Binary64.ofDecimal negative (ds.foldl (fun acc d => acc * 10 + d) 0) (e - fraction.length)

/-- A floating-point number, among them the infinities and the number that is none. Numbers too
large for the format are no numbers. -/
def float? (s : String) : Option Number :=
  let positive (t : String) : Option Number :=
    if [".inf", ".Inf", ".INF"].contains t then some (.infinity false) else none
  let unsigned := match s.toList with
    | '+' :: rest => String.ofList rest
    | _ => s
  if s.toList.take 2 = ['+', '+'] ∨ s.toList.take 2 = ['+', '-'] then none
  else match positive unsigned with
    | some n => some n
    | none =>
      if ["-.inf", "-.Inf", "-.INF"].contains s then some (.infinity true)
      else if [".nan", ".NaN", ".NAN"].contains s then some .notANumber
      else match unsigned.toList with
        | '-' :: rest => (decimal? true rest).map .float
        | rest => (decimal? false rest).map .float

/-- The value of an integer in the word range; past it the integer is refused, unless it is so large
that it is read as a floating-point number. -/
def ofInt (i : Int) (otherwise : Yaml) : Option Yaml :=
  if h : Json.InWordRange i then some (.number (.int i h))
  else if -(Nat.pow 2 127 : Int) ≤ i ∧ i < Nat.pow 2 128 then none
  else some otherwise

/-- The value of a plain scalar, `none` if it is refused. -/
def plain (s : String) : Option Yaml :=
  if s.isEmpty ∨ isNull s then some .null
  else match bool? s with
    | some b => some (.bool b)
    | none =>
      let notInteger : Yaml :=
        if hasLeadingZero s.toList then .string s
        else match float? s with
          | some n => .number n
          | none => .string s
      match int? s.toList with
      | some i => ofInt i notInteger
      | none => some notInteger

/-- The name that a tag of the core schema ends in, if it is one. -/
def coreTag? (tag : String) : Option String :=
  Text.dropPrefix? "tag:yaml.org,2002:" tag

/-- The value of a scalar under a tag of its own or none. The core tags for booleans, integers,
floating-point numbers and null demand such a text; other core tags, and quotes, make a string. A
tag that begins with an exclamation mark is kept around the value. -/
def resolve (tag : Option String) (isPlain : Bool) (s : String) : Option Yaml :=
  let untagged : Option Yaml := if isPlain then plain s else some (.string s)
  match tag with
  | none => untagged
  | some t =>
    if t.toList.head? = some '!' then
      let name := if t = "!" then t else String.ofList (t.toList.drop 1)
      untagged.map (.tagged name)
    else match coreTag? t with
      | some "bool" => (bool? s).map .bool
      | some "int" => (int? s.toList).bind fun i =>
        if h : Json.InWordRange i then some (.number (.int i h)) else none
      | some "float" => (float? s).map .number
      | some "null" => if isNull s then some .null else none
      | _ => some (.string s)

end DesignSystem.Yaml.Scalar
