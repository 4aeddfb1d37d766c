import DesignSystem.Json.Source
/-!
# Reading documents

A written document denotes a value: units in strings pair up to characters, numbers take their
values, and of a repeated key the last entry counts. A text with a lone surrogate, a number out of
range or more than `maxDepth` levels of arrays and objects denotes none.
-/

namespace DesignSystem.Json

/-- How many levels of arrays and objects a document may have. -/
def maxDepth : Nat :=
  127

/-- Whether a unit opens a pair. -/
def isHighSurrogate (n : Nat) : Bool :=
  decide (0xD800 ≤ n) && decide (n ≤ 0xDBFF)

/-- Whether a unit closes a pair. -/
def isLowSurrogate (n : Nat) : Bool :=
  decide (0xDC00 ≤ n) && decide (n ≤ 0xDFFF)

/-- The characters of a string's pieces. Two units that form a pair give one character; half a
pair gives none. -/
def decodePieces : List Piece → Option (List Char)
  | [] => some []
  | .char c :: rest => (decodePieces rest).map (c :: ·)
  | .unit n :: .unit m :: rest =>
    if isHighSurrogate n then
      if isLowSurrogate m then
        (decodePieces rest).map (Char.ofNat (0x10000 + (n - 0xD800) * 0x400 + (m - 0xDC00)) :: ·)
      else none
    else if isLowSurrogate n then none
    else (decodePieces (.unit m :: rest)).map (Char.ofNat n :: ·)
  | .unit n :: rest =>
    if isHighSurrogate n || isLowSurrogate n then none
    else (decodePieces rest).map (Char.ofNat n :: ·)

/-- The text of a string's pieces. -/
def decodeText (pieces : List Piece) : Option String :=
  (decodePieces pieces).map String.ofList

namespace Source

mutual

/-- The value of a written document, with at most `depth` levels of arrays and objects. -/
def value (depth : Nat) : Source → Option Json
  | .null => some .null
  | .bool b => some (.bool b)
  | .number t => t.number?.map .number
  | .string pieces => (decodeText pieces).map .string
  | .array items => match depth with
    | 0 => none
    | depth + 1 => (itemValues depth items).map .array
  | .object entries => match depth with
    | 0 => none
    | depth + 1 => (entryValues depth entries).map fun es => .object (Keyed.ofList es)

/-- The values of the items of an array. -/
def itemValues (depth : Nat) : List Source → Option (List Json)
  | [] => some []
  | s :: rest => do
    let v ← value depth s
    let vs ← itemValues depth rest
    return v :: vs

/-- The keys and values of the entries of an object, as written. -/
def entryValues (depth : Nat) : List (List Piece × Source) → Option (List (String × Json))
  | [] => some []
  | (k, s) :: rest => do
    let key ← decodeText k
    let v ← value depth s
    let vs ← entryValues depth rest
    return (key, v) :: vs

end

end Source

/-- The document that a text denotes. -/
def read (s : String) : Option Json :=
  (Source.ofString s).bind (Source.value maxDepth)

end DesignSystem.Json
