import DesignSystem.Json.Basic
/-!
# Writing documents

A document is written compactly on one line, or with one entry per line and two blanks of
indentation a level. Strings are written with as few escapes as the format allows.
-/

namespace DesignSystem.Json

/-- Floating-point numbers are positional from `10 ^ -5` to below `10 ^ 16`; the exponents of larger
ones have a plus sign. -/
def numberLayout : DecimalLayout :=
  { least := -5, bound := 16, plus := true }

/-- The text of a number. -/
def Number.write : Number → String
  | .int value _ => toString value
  | .float value => numberLayout.writeBinary64 value

/-- The digit of a value below sixteen, in lower case. -/
def hexDigit (n : Nat) : Char :=
  Nat.digitChar n

/-- A character inside a quoted string. Quotes, backslashes and control characters are escaped. -/
def escape (c : Char) : List Char :=
  if c = '"' then ['\\', '"']
  else if c = '\\' then ['\\', '\\']
  else if c = '\n' then ['\\', 'n']
  else if c = '\r' then ['\\', 'r']
  else if c = '\t' then ['\\', 't']
  else if c = '\x08' then ['\\', 'b']
  else if c = '\x0c' then ['\\', 'f']
  else if c.toNat < 0x20 then
    ['\\', 'u', '0', '0', hexDigit (c.toNat / 16), hexDigit (c.toNat % 16)]
  else [c]

/-- A string in quotes. -/
def quote (s : String) : List Char :=
  '"' :: (s.toList.flatMap escape ++ ['"'])

mutual

/-- The compact text of a document. -/
def compactChars : Json → List Char
  | .null => "null".toList
  | .bool true => "true".toList
  | .bool false => "false".toList
  | .number n => n.write.toList
  | .string s => quote s
  | .array [] => ['[', ']']
  | .array (x :: xs) => '[' :: (compactChars x ++ compactItems xs ++ [']'])
  | .object [] => ['\x7b', '\x7d']
  | .object ((k, x) :: es) =>
    '\x7b' :: (quote k ++ ':' :: (compactChars x ++ compactEntries es ++ ['\x7d']))

/-- The items after the first, each after a comma. -/
def compactItems : List Json → List Char
  | [] => []
  | x :: xs => ',' :: (compactChars x ++ compactItems xs)

/-- The entries after the first, each after a comma. -/
def compactEntries : List (String × Json) → List Char
  | [] => []
  | (k, x) :: es => ',' :: (quote k ++ ':' :: (compactChars x ++ compactEntries es))

end

/-- A new line with the indentation of `level`. -/
def newLine (level : Nat) : List Char :=
  '\n' :: List.replicate (2 * level) ' '

mutual

/-- The indented text of a document at a level. -/
def prettyChars (level : Nat) : Json → List Char
  | .null => "null".toList
  | .bool true => "true".toList
  | .bool false => "false".toList
  | .number n => n.write.toList
  | .string s => quote s
  | .array [] => ['[', ']']
  | .array (x :: xs) =>
    '[' :: (newLine (level + 1) ++ prettyChars (level + 1) x ++ prettyItems (level + 1) xs ++
      newLine level ++ [']'])
  | .object [] => ['\x7b', '\x7d']
  | .object ((k, x) :: es) =>
    '\x7b' :: (newLine (level + 1) ++ quote k ++ ':' :: ' ' ::
      (prettyChars (level + 1) x ++ prettyEntries (level + 1) es ++ newLine level ++ ['\x7d']))

/-- The items after the first, each on a line of its own. -/
def prettyItems (level : Nat) : List Json → List Char
  | [] => []
  | x :: xs => ',' :: (newLine level ++ prettyChars level x ++ prettyItems level xs)

/-- The entries after the first, each on a line of its own. -/
def prettyEntries (level : Nat) : List (String × Json) → List Char
  | [] => []
  | (k, x) :: es =>
    ',' :: (newLine level ++ quote k ++
      ':' :: ' ' :: (prettyChars level x ++ prettyEntries level es))

end

/-- The document on one line. -/
def compact (j : Json) : String :=
  String.ofList j.compactChars

/-- The document with one entry a line. -/
def pretty (j : Json) : String :=
  String.ofList (j.prettyChars 0)

end DesignSystem.Json
