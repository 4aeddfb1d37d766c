import DesignSystem.Json.Number
/-!
# Documents as written

The grammar of documents, apart from the values that texts denote. A text is cut into tokens in one
pass over its characters, and the tokens are put together by a machine that keeps the open arrays
and objects on a stack; both passes consume one item a step. The result is a `Source`: numbers are
still parts of texts, strings still hold their escapes, and objects list every entry in order,
repeated keys included.
-/

namespace DesignSystem.Json

/-- Part of a string: a character as it stands, or a 16-bit unit given by its number. -/
inductive Piece where
  | char (c : Char)
  | unit (n : Nat)

/-- A document as written. -/
inductive Source where
  | null
  | bool (value : Bool)
  | number (text : NumberText)
  | string (pieces : List Piece)
  | array (items : List Source)
  | object (entries : List (List Piece × Source))

/-! ### Tokens -/

/-- What a text is made of. -/
inductive Token where
  | openArray
  | closeArray
  | openObject
  | closeObject
  | comma
  | colon
  | scalar (value : Source)
  | string (pieces : List Piece)

/-- The four characters that may stand between tokens. -/
def isGap (c : Char) : Bool :=
  c == ' ' || c == '\t' || c == '\n' || c == '\r'

/-- The token of a single character. -/
def punctuation? (c : Char) : Option Token :=
  if c = '[' then some .openArray
  else if c = ']' then some .closeArray
  else if c = '\x7b' then some .openObject
  else if c = '\x7d' then some .closeObject
  else if c = ',' then some .comma
  else if c = ':' then some .colon
  else none

/-- The scalar that a word denotes. -/
def scalar? (word : List Char) : Option Source :=
  if word = ['n', 'u', 'l', 'l'] then some .null
  else if word = ['t', 'r', 'u', 'e'] then some (.bool true)
  else if word = ['f', 'a', 'l', 's', 'e'] then some (.bool false)
  else (NumberText.ofChars word).map .number

/-- Ends the word read so far, given in reverse. -/
def endWord (word : List Char) (found : List Token) : Option (List Token) :=
  match word with
  | [] => some found
  | _ => (scalar? word.reverse).map fun s => .scalar s :: found

/-- The value of a hexadecimal digit. -/
def hexValue? (c : Char) : Option Nat :=
  if '0' ≤ c ∧ c ≤ '9' then some (c.toNat - 48)
  else if 'a' ≤ c ∧ c ≤ 'f' then some (c.toNat - 87)
  else if 'A' ≤ c ∧ c ≤ 'F' then some (c.toNat - 55)
  else none

/-- The number of four hexadecimal digits. -/
def hexUnit? (a b c d : Char) : Option Nat :=
  match hexValue? a, hexValue? b, hexValue? c, hexValue? d with
  | some a, some b, some c, some d => some (((a * 16 + b) * 16 + c) * 16 + d)
  | _, _, _, _ => none

/-- The character that a backslash and `c` stand for. -/
def unescape? (c : Char) : Option Char :=
  if c = '"' ∨ c = '\\' ∨ c = '/' then some c
  else if c = 'b' then some '\x08'
  else if c = 'f' then some '\x0c'
  else if c = 'n' then some '\n'
  else if c = 'r' then some '\r'
  else if c = 't' then some '\t'
  else none

/-- Where the pass over the characters stands: between tokens with the word read so far, or inside
a string with the pieces read so far; both in reverse. -/
inductive Place where
  | outside (word : List Char)
  | inside (pieces : List Piece)

/-- The tokens of a text in reverse, after those already found. -/
def tokensFrom : List Char → Place → List Token → Option (List Token)
  | [], .outside word, found => endWord word found
  | [], .inside _, _ => none
  | c :: cs, .outside word, found =>
    if isGap c then (endWord word found).bind fun found => tokensFrom cs (.outside []) found
    else if c = '"' then (endWord word found).bind fun found => tokensFrom cs (.inside []) found
    else match punctuation? c with
      | some t => (endWord word found).bind fun found => tokensFrom cs (.outside []) (t :: found)
      | none => tokensFrom cs (.outside (c :: word)) found
  | '\\' :: 'u' :: a :: b :: c :: d :: cs, .inside pieces, found =>
    match hexUnit? a b c d with
    | some n => tokensFrom cs (.inside (.unit n :: pieces)) found
    | none => none
  | '\\' :: c :: cs, .inside pieces, found =>
    match unescape? c with
    | some c => tokensFrom cs (.inside (.char c :: pieces)) found
    | none => none
  | c :: cs, .inside pieces, found =>
    if c = '"' then tokensFrom cs (.outside []) (.string pieces.reverse :: found)
    else if c = '\\' ∨ c.toNat < 0x20 then none
    else tokensFrom cs (.inside (.char c :: pieces)) found

/-- The tokens of a text. -/
def tokens (cs : List Char) : Option (List Token) :=
  (tokensFrom cs (.outside []) []).map List.reverse

/-! ### Putting tokens together -/

/-- An array or object that is still open, with what it holds so far, latest first. An object waits
for the value under `key`. -/
inductive Open where
  | array (items : List Source)
  | object (entries : List (List Piece × Source)) (key : List Piece)

/-- What the next token may be. -/
inductive State where
  /-- A value. -/
  | value (stack : List Open)
  /-- The first item of an array, or its end. -/
  | firstItem (stack : List Open)
  /-- The first key of an object, or its end. -/
  | firstKey (stack : List Open)
  /-- A further key. -/
  | key (entries : List (List Piece × Source)) (stack : List Open)
  /-- The colon after a key. -/
  | colon (entries : List (List Piece × Source)) (key : List Piece) (stack : List Open)
  /-- Whatever may follow a complete value. -/
  | complete (value : Source) (stack : List Open)

/-- A token where a value is expected. -/
def stepValue (stack : List Open) : Token → Option State
  | .scalar s => some (.complete s stack)
  | .string pieces => some (.complete (.string pieces) stack)
  | .openArray => some (.firstItem stack)
  | .openObject => some (.firstKey stack)
  | _ => none

/-- The machine takes one token. -/
def step : State → Token → Option State
  | .value stack, t => stepValue stack t
  | .firstItem stack, .closeArray => some (.complete (.array []) stack)
  | .firstItem stack, t => stepValue (.array [] :: stack) t
  | .firstKey stack, .closeObject => some (.complete (.object []) stack)
  | .firstKey stack, .string k => some (.colon [] k stack)
  | .key entries stack, .string k => some (.colon entries k stack)
  | .colon entries k stack, .colon => some (.value (.object entries k :: stack))
  | .complete v (.array items :: stack), .comma => some (.value (.array (v :: items) :: stack))
  | .complete v (.array items :: stack), .closeArray =>
    some (.complete (.array (v :: items).reverse) stack)
  | .complete v (.object entries k :: stack), .comma => some (.key ((k, v) :: entries) stack)
  | .complete v (.object entries k :: stack), .closeObject =>
    some (.complete (.object ((k, v) :: entries).reverse) stack)
  | _, _ => none

/-- The document of a text, if the text is one document with nothing after it. -/
def Source.ofChars (cs : List Char) : Option Source :=
  match (tokens cs).bind fun ts => ts.foldlM step (.value []) with
  | some (.complete v []) => some v
  | _ => none

/-- The document of a text. -/
def Source.ofString (s : String) : Option Source :=
  Source.ofChars s.toList

end DesignSystem.Json
