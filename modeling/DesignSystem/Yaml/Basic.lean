import DesignSystem.Json.Printer
/-!
# YAML values

The values a YAML text denotes, and the document that corresponds to one. Mapping keys may be any
value; a document keeps the entries whose keys are strings, numbers or booleans, under the text of
the key, and tags do not matter to it.
-/

namespace DesignSystem

namespace Yaml

/-- A YAML number: an integer of the word range or a floating-point number, which may be infinite
or no number at all. -/
inductive Number where
  | int (value : Int) (inRange : Json.InWordRange value)
  | float (value : Binary64)
  | infinity (negative : Bool)
  | notANumber

end Yaml

/-- A YAML value. -/
inductive Yaml where
  | null
  | bool (value : Bool)
  | number (value : Yaml.Number)
  | string (value : String)
  | sequence (items : List Yaml)
  | mapping (entries : List (Yaml × Yaml))
  | tagged (tag : String) (value : Yaml)

namespace Yaml

/-- Floating-point numbers in keys are laid out as in documents, but their exponents have no plus
sign. -/
def keyLayout : DecimalLayout :=
  { Json.numberLayout with plus := false }

/-- The text of a number as a key. -/
def Number.keyText : Number → String
  | .int value _ => toString value
  | .float value => keyLayout.writeBinary64 value
  | .infinity false => ".inf"
  | .infinity true => "-.inf"
  | .notANumber => ".nan"

/-- The document of a number. Infinities and the like become null. -/
def Number.toJson : Number → Json
  | .int value inRange => .number (.int value inRange)
  | .float value => .number (.float value)
  | .infinity _ | .notANumber => .null

/-- The text under which a document keeps an entry with the given key, if it keeps it. -/
def keyText? : Yaml → Option String
  | .string s => some s
  | .number n => some n.keyText
  | .bool true => some "true"
  | .bool false => some "false"
  | _ => none

mutual

/-- The document of a value. Of entries whose keys have equal texts the last counts. -/
def toJson : Yaml → Json
  | .null => .null
  | .bool b => .bool b
  | .number n => n.toJson
  | .string s => .string s
  | .sequence items => .array (itemsToJson items)
  | .mapping entries => .object (Keyed.ofList (entriesToJson entries))
  | .tagged _ value => toJson value

/-- The documents of the items of a sequence. -/
def itemsToJson : List Yaml → List Json
  | [] => []
  | y :: ys => toJson y :: itemsToJson ys

/-- The entries of a mapping that a document keeps. -/
def entriesToJson : List (Yaml × Yaml) → List (String × Json)
  | [] => []
  | (k, y) :: es => match keyText? k with
    | some key => (key, toJson y) :: entriesToJson es
    | none => entriesToJson es

end

/-- Equality of numbers as keys: an integer never equals a floating-point number, and the two
zeros are equal. -/
def Number.sameKey : Number → Number → Bool
  | .int a _, .int b _ => a == b
  | .float x, .float y => x.sameValue y
  | .infinity a, .infinity b => a == b
  | .notANumber, .notANumber => true
  | _, _ => false

mutual

/-- Equality of values as keys. Mappings are equal whatever the order of their entries. -/
def sameKey : Yaml → Yaml → Bool
  | .null, .null => true
  | .bool a, .bool b => a == b
  | .number a, .number b => a.sameKey b
  | .string a, .string b => a == b
  | .sequence as, .sequence bs => sameItems as bs
  | .mapping as, .mapping bs => as.length == bs.length && sameEntries as bs
  | .tagged s a, .tagged t b => s == t && sameKey a b
  | _, _ => false

/-- Equality of the items of sequences. -/
def sameItems : List Yaml → List Yaml → Bool
  | [], [] => true
  | a :: as, b :: bs => sameKey a b && sameItems as bs
  | _, _ => false

/-- Whether every entry of the first mapping is one of the second. -/
def sameEntries : List (Yaml × Yaml) → List (Yaml × Yaml) → Bool
  | [], _ => true
  | (k, v) :: as, bs => bs.any (fun e => sameKey k e.1 && sameKey v e.2) && sameEntries as bs

end

end Yaml

end DesignSystem
