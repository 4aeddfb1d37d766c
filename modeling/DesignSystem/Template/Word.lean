import DesignSystem.Json.Reader
import DesignSystem.Template.Value
import DesignSystem.Template.Comparison
/-!
# The words of templates

What stands in a gap or a tag is cut into names, texts in quotes, numbers and signs, with blanks
between them where they would run together.
-/

namespace DesignSystem.Template

/-- A sign between names and values. -/
inductive Sign where
  | dot
  | bar
  | comma
  | colon
  | tilde
  | minus
  | assign
  | openParen
  | closeParen
  | openBracket
  | closeBracket
  | openBrace
  | closeBrace
  | compare (comparison : Comparison)
  deriving DecidableEq

/-- A word of an expression or of a tag. -/
inductive Word where
  | name (text : String)
  | text (text : String)
  | number (value : Number)
  | sign (sign : Sign)

/-! ### Classes of characters -/

/-- Whether a name may begin with a character. -/
def startsName (c : Char) : Bool :=
  c.isAlpha || c == '_'

/-- Whether a character may be part of a name. -/
def isNameChar (c : Char) : Bool :=
  c.isAlphanum || c == '_'

/-- Whether a character may stand between words. -/
def isSpace (c : Char) : Bool :=
  c == ' ' || c == '\t' || c == '\n' || c == '\r' || c == '\x0c'

/-! ### Signs -/

/-- The sign of two characters. -/
def pairSign? (c d : Char) : Option Sign :=
  if d ≠ '=' then none
  else if c = '=' then some (.compare .equal)
  else if c = '!' then some (.compare .unequal)
  else if c = '<' then some (.compare .lessOrEqual)
  else if c = '>' then some (.compare .greaterOrEqual)
  else none

/-- The sign of a character. -/
def sign? (c : Char) : Option Sign :=
  if c = '.' then some .dot
  else if c = '|' then some .bar
  else if c = ',' then some .comma
  else if c = ':' then some .colon
  else if c = '~' then some .tilde
  else if c = '-' then some .minus
  else if c = '=' then some .assign
  else if c = '(' then some .openParen
  else if c = ')' then some .closeParen
  else if c = '[' then some .openBracket
  else if c = ']' then some .closeBracket
  else if c = '\x7b' then some .openBrace
  else if c = '\x7d' then some .closeBrace
  else if c = '<' then some (.compare .less)
  else if c = '>' then some (.compare .greater)
  else none

/-! ### Texts -/

/-- The characters that a backslash and `c` stand for in quotes: an escape that is unknown stands
for itself. -/
def unescape (c : Char) : List Json.Piece :=
  if c = '\x27' then [.char c]
  else match Json.unescape? c with
    | some c => [.char c]
    | none => [.char '\\', .char c]

/-- The unit of four hexadecimal digits; a plus sign may stand for the first one. -/
def unit? (a b c d : Char) : Option Nat :=
  Json.hexUnit? (if a = '+' then '0' else a) b c d

/-- The pieces of a text up to the closing quote, and what comes after it. -/
def takeQuoted (quote : Char) : List Char → Option (List Json.Piece × List Char)
  | [] => none
  | '\\' :: 'u' :: a :: b :: c :: d :: cs => do
    let n ← unit? a b c d
    let (pieces, rest) ← takeQuoted quote cs
    return (.unit n :: pieces, rest)
  | '\\' :: 'x' :: a :: b :: cs => do
    let n ← Json.hexUnit? '0' '0' a b
    let (pieces, rest) ← takeQuoted quote cs
    return (.unit n :: pieces, rest)
  | '\\' :: c :: cs =>
    if c = 'u' ∨ c = 'x' then none
    else (takeQuoted quote cs).map fun (pieces, rest) => (unescape c ++ pieces, rest)
  | c :: cs =>
    if c = quote then some ([], cs)
    else (takeQuoted quote cs).map fun (pieces, rest) => (.char c :: pieces, rest)

/-- The text up to the closing quote, and what comes after it. -/
def takeText (quote : Char) (cs : List Char) : Option (Word × List Char) := do
  let (pieces, rest) ← takeQuoted quote cs
  let s ← Json.decodeText pieces
  return (.text s, rest)

/-! ### Numbers -/

/-- What has been read of a number: digits in a base other than ten, digits in base ten, these and
a point, or a number with the mark of its exponent, to which a sign or digits belong. -/
inductive Numeral where
  | based (base : Nat)
  | whole
  | fraction
  | mark
  | exponent
  deriving DecidableEq

/-- What has been read of a number after one more character, if that belongs to the number. -/
def Numeral.step? (n : Numeral) (c : Char) : Option Numeral :=
  match n with
  | based base =>
    if c.isDigit ∨ c = '_' ∨ (base = 16 ∧ (Json.hexValue? c).isSome) then some n else none
  | whole =>
    if c.isDigit ∨ c = '_' then some n
    else if c = '.' then some fraction
    else if c = 'e' ∨ c = 'E' then some mark
    else none
  | fraction =>
    if c.isDigit ∨ c = '_' then some n
    else if c = 'e' ∨ c = 'E' then some mark
    else none
  | mark =>
    if c = '_' then some n else if c.isDigit ∨ c = '+' ∨ c = '-' then some exponent else none
  | exponent => if c.isDigit ∨ c = '_' then some n else none

/-- The characters that belong to a number, what they are, and what comes after them. -/
def takeNumeral (n : Numeral) : List Char → List Char × Numeral × List Char
  | [] => ([], n, [])
  | c :: cs => match n.step? c with
    | some m =>
      let (digits, last, rest) := takeNumeral m cs
      (c :: digits, last, rest)
    | none => ([], n, c :: cs)

/-- The largest integer that may be written. -/
def maxInteger : Nat :=
  340282366920938463463374607431768211455

/-- The integer of digits in a base. -/
def integer? (base : Nat) (digits : List Char) : Option Number := do
  let values ← digits.mapM Json.hexValue?
  let value := values.foldl (fun n d => base * n + d) 0
  if values ≠ [] ∧ values.all (· < base) ∧ value ≤ maxInteger then some (.int value) else none

/-- The floating-point number of a text. -/
def float? (cs : List Char) : Option Number := do
  let (whole, rest) := Json.digitRun cs
  let (fraction, rest) := match rest with
    | '.' :: rest => Json.digitRun rest
    | rest => ([], rest)
  let exponent : Int ← match rest with
    | [] => some 0
    | _ :: rest => (Json.exponentOf rest).map fun (negative, ds) =>
      let e : Nat := ds.foldl (fun n d => 10 * n + d) 0
      if negative then -(e : Int) else e
  let digits := (whole ++ fraction).foldl (fun n d => 10 * n + d) 0
  return .float (← Binary64.ofDecimal false digits (exponent - fraction.length))

/-- A number at the start of a text, and what comes after it. Underscores may stand anywhere but
at its end. -/
def takeNumber (cs : List Char) : Option (Word × List Char) := do
  let (start, cs) : Numeral × List Char := match cs with
    | '0' :: c :: rest =>
      if c = 'x' ∨ c = 'X' then (.based 16, rest)
      else if c = 'o' ∨ c = 'O' then (.based 8, rest)
      else if c = 'b' ∨ c = 'B' then (.based 2, rest)
      else (.whole, cs)
    | _ => (.whole, cs)
  let (written, numeral, rest) := takeNumeral start cs
  if written.getLast? = some '_' then none
  else
    let digits := written.filter (· ≠ '_')
    let value ← match numeral with
      | .based base => integer? base digits
      | .whole => integer? 10 digits
      | .fraction | .mark | .exponent => float? digits
    return (.number value, rest)

/-! ### Words -/

/-- The sign at the start of a text, and what comes after it. -/
def takeSign : List Char → Option (Word × List Char)
  | [] => none
  | c :: cs => match cs.head?.bind (pairSign? c) with
    | some s => some (.sign s, cs.tail)
    | none => (sign? c).map fun s => (.sign s, cs)

/-- The word at the start of a text, and what comes after it. -/
def takeWord : List Char → Option (Word × List Char)
  | [] => none
  | c :: cs =>
    if startsName c then
      some (.name (String.ofList (c :: cs.takeWhile isNameChar)), cs.dropWhile isNameChar)
    else if c.isDigit then takeNumber (c :: cs)
    else if c = '"' ∨ c = '\x27' then takeText c cs
    else takeSign (c :: cs)

/-- The words of a text of at most `bound` characters. -/
def wordsWithin : Nat → List Char → Option (List Word)
  | _, [] => some []
  | 0, _ :: _ => none
  | bound + 1, c :: cs =>
    if isSpace c then wordsWithin bound cs
    else do
      let (w, rest) ← takeWord (c :: cs)
      let ws ← wordsWithin bound rest
      return w :: ws

/-- The words of a text. -/
def words? (cs : List Char) : Option (List Word) :=
  wordsWithin cs.length cs

end DesignSystem.Template
