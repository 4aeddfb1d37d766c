import DesignSystem.Yaml.Cursor
import DesignSystem.Json.Source
/-!
# The text of scalars

Scalars run over several lines. Inside plain and quoted scalars a single line break counts as a
space and further ones as themselves, with the blanks around them dropped (`Folded.settle`). Block
scalars keep their lines, indented by a common amount, and fold them only where asked to. Each
reader returns the text and the place after it, or nothing if the scalar is malformed.
-/

namespace DesignSystem.Yaml

/-- A folded text in the making. The blanks and line breaks read last are held back until a further
character shows that they are not at the end. Texts are held in reverse. -/
structure Folded where
  text : List Char
  blanks : List Char
  firstBreak : List Char
  moreBreaks : List Char
  broken : Bool

namespace Folded

/-- The empty text. -/
def empty : Folded :=
  ⟨[], [], [], [], false⟩

/-- Takes in what was held back. -/
def settle (f : Folded) : Folded :=
  let held :=
    if f.broken then
      if f.firstBreak = ['\n'] then if f.moreBreaks = [] then [' '] else f.moreBreaks
      else f.moreBreaks ++ f.firstBreak.reverse
    else f.blanks
  ⟨held ++ f.text, [], [], [], false⟩

/-- Takes in a character. -/
def push (f : Folded) (c : Char) : Folded :=
  { f with text := c :: f.text }

/-- Holds back a blank; blanks after a line break are dropped. -/
def blank (f : Folded) (c : Char) : Folded :=
  if f.broken then f else { f with blanks := c :: f.blanks }

/-- Holds back a line break. -/
def lineBreak (f : Folded) (b : List Char) : Folded :=
  if f.broken then { f with moreBreaks := b.reverse ++ f.moreBreaks }
  else { f with blanks := [], firstBreak := b, broken := true }

/-- The text as it stands. -/
def result (f : Folded) : String :=
  String.ofList f.text.reverse

end Folded

/-! ### Quoted scalars -/

/-- The single character that a backslash and `c` stand for. -/
def unescape? (c : Char) : Option Char :=
  match c with
  | '0' => some '\x00'
  | 'a' => some '\x07'
  | 'b' => some '\x08'
  | 't' | '\t' => some '\t'
  | 'n' => some '\n'
  | 'v' => some '\x0b'
  | 'f' => some '\x0c'
  | 'r' => some '\r'
  | 'e' => some '\x1b'
  | ' ' | '"' | '/' | '\\' => some c
  | 'N' => some '\u0085'
  | '_' => some '\u00a0'
  | 'L' => some '\u2028'
  | 'P' => some '\u2029'
  | _ => none

/-- How many hexadecimal digits follow a backslash and `c`. -/
def hexLength? (c : Char) : Option Nat :=
  match c with
  | 'x' => some 2
  | 'u' => some 4
  | 'U' => some 8
  | _ => none

/-- The character with the number given by hexadecimal digits. -/
def hexChar? (ds : List Char) (length : Nat) : Option Char :=
  if ds.length ≠ length then none
  else match ds.foldlM (fun acc d => (Json.hexValue? d).map (acc * 16 + ·)) 0 with
    | some n => if n.isValidChar then some (Char.ofNat n) else none
    | none => none

/-- The escape after a backslash, as a character and the place after it. -/
def escaped? (c : Cursor) : Option (Char × Cursor) :=
  match c.rest with
  | [] => none
  | ch :: rest => match unescape? ch with
    | some r => some (r, c.skip)
    | none => match hexLength? ch with
      | some n => (hexChar? (rest.take n) n).map fun r => (r, c.skipMany (n + 1))
      | none => none

/-- Reads a quoted scalar from inside its quotes, at most `fuel` steps. -/
def quotedFrom (single : Bool) : Nat → Cursor → Folded → Option (String × Cursor)
  | 0, _, _ => none
  | fuel + 1, c, f =>
    match c.rest with
    | [] => none
    | ch :: rest =>
      if c.atMarker then none
      else if isSpace ch then quotedFrom single fuel c.skip (f.blank ch)
      else if isBreak ch then quotedFrom single fuel c.skipBreak (f.lineBreak c.breakText)
      else
        let f := f.settle
        if single && ch == '\'' then
          if rest.head? = some '\'' then quotedFrom single fuel (c.skipMany 2) (f.push '\'')
          else some (f.result, c.skip)
        else if !single && ch == '"' then some (f.result, c.skip)
        else if !single && ch == '\\' then
          if (rest.head?.map isBreak).getD false then
            quotedFrom single fuel c.skip.skipBreak (f.lineBreak [])
          else match escaped? c.skip with
            | some (r, c) => quotedFrom single fuel c (f.push r)
            | none => none
        else quotedFrom single fuel c.skip (f.push ch)

/-- Reads the quoted scalar at the cursor, in single or double quotes. -/
def quoted (single : Bool) (c : Cursor) : Option (String × Cursor) :=
  quotedFrom single (c.rest.length + 1) c.skip .empty

/-! ### Plain scalars -/

/-- The characters that structure a collection in brackets. -/
def isFlowIndicator (c : Char) : Bool :=
  c == ',' || c == '[' || c == ']' || c == '\x7b' || c == '\x7d'

/-- Reads a plain scalar, at most `fuel` steps. Continuation lines start at `indent` or further in.
The last component says whether a line break was read after the text. -/
def plainFrom (flow : Bool) (indent : Nat) :
    Nat → Cursor → Folded → Option (String × Cursor × Bool)
  | 0, _, _ => none
  | fuel + 1, c, f =>
    let stop := some (f.result, c, f.broken)
    match c.rest with
    | [] => stop
    | ch :: rest =>
      if isSpace ch then
        if f.broken && c.column < indent && ch == '\t' then none
        else plainFrom flow indent fuel c.skip (f.blank ch)
      else if isBreak ch then plainFrom flow indent fuel c.skipBreak (f.lineBreak c.breakText)
      else if f.broken && !flow && c.column < indent then stop
      else if c.atMarker then stop
      else if ch == '#' && (f.broken || !f.blanks.isEmpty) then stop
      else if ch == ':' && flow &&
          (rest.head?.map fun d => isFlowIndicator d || d == '?').getD false then none
      else if ch == ':' && c.blankAt 1 then stop
      else if flow && isFlowIndicator ch then stop
      else plainFrom flow indent fuel c.skip (f.settle.push ch)

/-- Reads the plain scalar at the cursor. -/
def plainScalar (flow : Bool) (indent : Nat) (c : Cursor) : Option (String × Cursor × Bool) :=
  plainFrom flow indent (c.rest.length + 1) c .empty

/-! ### Block scalars -/

/-- What becomes of the line breaks at the end of a block scalar. -/
inductive Chomping where
  | strip
  | clip
  | keep

/-- Reads the indentation and the empty lines before the next line of a block scalar, at most
`fuel` steps. The indentation is `none` until the first line with content fixes it; `widest` is the
widest indentation seen. Returns the breaks in reverse. -/
def emptyLinesFrom (indent : Option Nat) :
    Nat → Cursor → Nat → List Char → Option (Cursor × Nat × List Char)
  | 0, _, _, _ => none
  | fuel + 1, c, widest, breaks =>
    let within := match indent with
      | some n => decide (c.column < n)
      | none => true
    match c.rest with
    | ' ' :: _ =>
      if within then emptyLinesFrom indent fuel c.skip widest breaks
      else some (c, max widest c.column, breaks)
    | '\t' :: _ => if within then none else some (c, max widest c.column, breaks)
    | ch :: _ =>
      if isBreak ch then
        emptyLinesFrom indent fuel c.skipBreak (max widest c.column)
          (c.breakText.reverse ++ breaks)
      else some (c, max widest c.column, breaks)
    | [] => some (c, max widest c.column, breaks)

/-- Reads the lines of a block scalar, at most `fuel` of them. `lastBreak` is the break before the
line, `breaks` are those of the empty lines after it, in reverse, and `led` says whether the last
line began with a blank. Returns the text in reverse and what is left to chomp. -/
def linesFrom (literal : Bool) (indent : Nat) :
    Nat → Cursor → (text lastBreak breaks : List Char) → (led : Bool) →
      Option (List Char × List Char × List Char × Cursor)
  | 0, _, _, _, _, _ => none
  | fuel + 1, c, text, lastBreak, breaks, led =>
    match c.rest with
    | [] => some (text, lastBreak, breaks, c)
    | ch :: _ =>
      if c.column ≠ indent then some (text, lastBreak, breaks, c)
      else
        let leads := isSpace ch
        let folds := !literal && lastBreak == ['\n'] && !led && !leads
        let joined :=
          if folds then if breaks = [] then [' '] else [] else lastBreak.reverse
        let line := c.rest.takeWhile fun ch => !isBreak ch
        let text := line.reverse ++ (breaks ++ (joined ++ text))
        let ended := c.skipLine
        match emptyLinesFrom (some indent) (ended.rest.length + 1) ended.skipBreak 0 [] with
        | none => none
        | some (next, _, breaks) =>
          linesFrom literal indent fuel next text ended.breakText breaks leads

/-- The header of a block scalar after its indicator: chomping, an explicit indentation, and the
place after both. -/
def blockHeader (c : Cursor) : Option (Chomping × Nat × Cursor) :=
  let chomping? (c : Cursor) : Option Chomping :=
    if c.at? '+' then some .keep else if c.at? '-' then some .strip else none
  let digit? (c : Cursor) : Option Nat := c.rest.head?.bind Json.digit?
  match chomping? c with
  | some chomping => match digit? c.skip with
    | some 0 => none
    | some n => some (chomping, n, c.skip.skip)
    | none => some (chomping, 0, c.skip)
  | none => match digit? c with
    | some 0 => none
    | some n => match chomping? c.skip with
      | some chomping => some (chomping, n, c.skip.skip)
      | none => some (.clip, n, c.skip)
    | none => some (.clip, 0, c)

/-- Reads the block scalar at the cursor, inside a block at the column `parent`, or at `none` for
the outermost level. -/
def blockScalar (literal : Bool) (parent : Option Nat) (c : Cursor) : Option (String × Cursor) := do
  let (chomping, increment, c) ← blockHeader c.skip
  let c := c.skipWhile isSpace
  let c := if c.at? '#' then c.skipLine else c
  let c ← match c.rest with
    | [] => some c
    | ch :: _ => if isBreak ch then some c.skipBreak else none
  let fixed := if increment = 0 then none else some (parent.getD 0 + increment)
  let (c, widest, breaks) ← emptyLinesFrom fixed (c.rest.length + 1) c 0 []
  let least := match parent with
    | some n => n + 1
    | none => 1
  let indent := fixed.getD (max widest least)
  let (text, lastBreak, breaks, c) ←
    linesFrom literal indent (c.rest.length + 1) c [] [] breaks false
  let tail := match chomping with
    | .strip => []
    | .clip => lastBreak
    | .keep => lastBreak ++ breaks.reverse
  return (String.ofList (text.reverse ++ tail), c)

end DesignSystem.Yaml
