import DesignSystem.Decimal.Layout
import DesignSystem.Template.Value
import DesignSystem.Text.Hidden
/-!
# The text of values

A text is printed as it is, and a floating-point number always positionally. Inside of lists and
maps a text stands in quotes, with escapes for quotes, line breaks and hidden characters, and a
number that is very large or very small has an exponent.
-/

namespace DesignSystem.Template

/-- Floating-point numbers that are printed are always positional. -/
def printedLayout : DecimalLayout :=
  { least := -400, bound := 400, plus := false }

/-- Floating-point numbers inside of lists and maps are positional from `10 ^ -4` to below
`10 ^ 16`. -/
def innerLayout : DecimalLayout :=
  { least := -4, bound := 16, plus := false }

/-- The text of a number. -/
def Number.write (layout : DecimalLayout) : Number → String
  | .int value => toString value
  | .float value => layout.writeBinary64 value

/-- The character in quotes by its code point. -/
def escapeCode (c : Char) : List Char :=
  ['\\', 'u', '\x7b'] ++ Nat.toDigits 16 c.toNat ++ ['\x7d']

/-- A character inside quotes. -/
def escape (c : Char) : List Char :=
  if c = '"' then ['\\', '"']
  else if c = '\\' then ['\\', '\\']
  else if c = '\n' then ['\\', 'n']
  else if c = '\r' then ['\\', 'r']
  else if c = '\t' then ['\\', 't']
  else if c = '\x00' then ['\\', '0']
  else if Text.isHidden c then escapeCode c
  else [c]

/-- A text in quotes. -/
def quote (s : String) : String :=
  String.ofList ('"' :: (s.toList.flatMap escape ++ ['"']))

/-- The name of a function. -/
def Function.name : Function → String
  | range => "range"
  | dict => "dict"
  | debug => "debug"
  | names => "namespace"

namespace Value

mutual

/-- The text of a value inside a list or a map. -/
def writeInner : Value → String
  | undefined => "undefined"
  | null => "None"
  | bool true => "True"
  | bool false => "False"
  | number n => n.write innerLayout
  | text s => quote s
  | list items => "[" ++ ", ".intercalate (writeItems items) ++ "]"
  | map entries => "\x7b" ++ ", ".intercalate (writeEntries entries) ++ "\x7d"
  | loop index count _ _ => "<loop " ++ toString index ++ "/" ++ toString count ++ ">"
  | function f => "<function " ++ f.name ++ ">"

/-- The texts of the items of a list. -/
def writeItems : List Value → List String
  | [] => []
  | v :: rest => writeInner v :: writeItems rest

/-- The texts of the entries of a map. -/
def writeEntries : List (String × Value) → List String
  | [] => []
  | (k, v) :: rest => (quote k ++ ": " ++ writeInner v) :: writeEntries rest

end

/-- The text of a value. -/
def write : Value → String
  | text s => s
  | number n => n.write printedLayout
  | undefined => ""
  | v => v.writeInner

end Value

end DesignSystem.Template
