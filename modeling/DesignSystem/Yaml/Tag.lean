import DesignSystem.Yaml.Cursor
import DesignSystem.Json.Source
/-!
# Tags as written

A tag is written in angle brackets, or as a handle between exclamation marks and a suffix. A
percent sign with two hexadecimal digits stands for a byte; the bytes next to each other make up
characters in UTF-8.
-/

namespace DesignSystem.Yaml

/-- A character of a name. -/
def isWordChar (c : Char) : Bool :=
  c.isAlphanum || c == '_' || c == '-'

namespace Tag

/-- A character of a tag; inside angle brackets three more are allowed. -/
def isTagChar (verbatim : Bool) (c : Char) : Bool :=
  isWordChar c || [';', '/', '?', ':', '@', '&', '=', '+', '$', '.', '%', '!', '~', '*', '\'',
    '(', ')'].contains c || (verbatim && [',', '[', ']'].contains c)

/-- Part of a tag: a character as it stands, or a byte given by its number. -/
inductive Piece where
  | char (c : Char)
  | byte (n : Nat)

/-- The parts of the text of a tag. -/
def pieces? : List Char → Option (List Piece)
  | [] => some []
  | '%' :: a :: b :: cs => do
    let high ← Json.hexValue? a
    let low ← Json.hexValue? b
    let ps ← pieces? cs
    return .byte (high * 16 + low) :: ps
  | c :: cs => if c = '%' then none else (pieces? cs).map (.char c :: ·)

/-- What the first byte of a character says: the bits it holds, and how many bytes follow. -/
def leading? (n : Nat) : Option (Nat × Nat) :=
  if n < 0x80 then some (n, 0)
  else if n / 0x20 = 0x6 then some (n % 0x20, 1)
  else if n / 0x10 = 0xE then some (n % 0x10, 2)
  else if n / 0x8 = 0x1E then some (n % 0x8, 3)
  else none

/-- The characters of parts. In the middle of a character `bits` are those read so far and `left`
bytes are still to come. -/
def charsFrom (bits : Nat) : (left : Nat) → List Piece → Option (List Char)
  | 0, [] => some []
  | _ + 1, [] => none
  | 0, .char c :: ps => (charsFrom 0 0 ps).map (c :: ·)
  | _ + 1, .char _ :: _ => none
  | 0, .byte n :: ps => match leading? n with
    | some (bits, 0) => (charsFrom 0 0 ps).map (Char.ofNat bits :: ·)
    | some (bits, left + 1) => charsFrom bits (left + 1) ps
    | none => none
  | left + 1, .byte n :: ps =>
    if n / 0x40 ≠ 2 then none
    else if left = 0 then (charsFrom 0 0 ps).map (Char.ofNat (bits * 0x40 + n % 0x40) :: ·)
    else charsFrom (bits * 0x40 + n % 0x40) left ps

/-- The text that the text of a tag stands for. -/
def decode? (cs : List Char) : Option String :=
  (pieces? cs).bind fun ps => (charsFrom 0 0 ps).map String.ofList

/-- The text of a tag up to a character that is none of it, not empty, and the place after it. -/
def uri? (verbatim : Bool) (c : Cursor) : Option (String × Cursor) :=
  let written := c.rest.takeWhile (isTagChar verbatim)
  if written.isEmpty then none
  else (decode? written).map fun s => (s, c.skipMany written.length)

/-- The word after an exclamation mark. -/
def handleWord (c : Cursor) : List Char :=
  (c.rest.drop 1).takeWhile isWordChar

/-- The handle at the cursor, if there is a second exclamation mark, and the place after it. -/
def handle? (c : Cursor) : Option (String × Cursor) :=
  let word := handleWord c
  let after := c.skipMany (1 + word.length)
  if after.at? '!' then some (String.ofList ('!' :: word ++ ['!']), after.skip) else none

/-- The tag at the cursor: handle, suffix and the place after them. -/
def read (c : Cursor) : Option (String × String × Cursor) :=
  if c.peek 1 = some '<' then do
    let (suffix, c) ← uri? true (c.skipMany 2)
    if c.at? '>' then some ("", suffix, c.skip) else none
  else match handle? c with
    | some (handle, c) => do
      let (suffix, c) ← uri? false c
      return (handle, suffix, c)
    | none => match c.skip.rest.takeWhile (isTagChar false) with
      | [] => some ("", "!", c.skip)
      | _ => do
        let (suffix, c) ← uri? false c.skip
        return ("!", suffix, c)

end Tag

end DesignSystem.Yaml
