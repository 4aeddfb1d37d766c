import DesignSystem.Yaml.Directive
import DesignSystem.Yaml.Fold
/-!
# Lexemes and layout

A YAML text as a list of lexemes. Blocks are marked by their indentation, which the scanner turns
into opening and closing lexemes. That a scalar was the key of a mapping shows only at the colon
after it, so the scanner remembers where each possible key began and puts the lexemes of the key in
front of it when the colon comes (`Scanner.value`).
-/

namespace DesignSystem.Yaml

/-- A lexeme of a YAML text. -/
inductive Lexeme where
  | directive (directive : Directive)
  | documentStart
  | documentEnd
  | streamEnd
  | blockSequenceStart
  | blockMappingStart
  | blockEnd
  | flowSequenceStart
  | flowSequenceEnd
  | flowMappingStart
  | flowMappingEnd
  | blockEntry
  | flowEntry
  | key
  | value
  | aliasOf (name : String)
  | anchor (name : String)
  | tag (handle suffix : String)
  | scalar (isPlain : Bool) (text : String)
  deriving DecidableEq

/-- Where a key may have begun. A key that is required must be followed by a colon. -/
structure PossibleKey where
  required : Bool
  position : Nat
  index : Nat
  line : Nat
  column : Nat

/-- The state of the scanner. `keys` has the possible key of each open bracket and of the block
around them; `indent` is the column of the innermost block and `indents` are those around it. -/
structure Scanner where
  cursor : Cursor
  lexemes : Array Lexeme
  flow : Nat
  indent : Option Nat
  indents : List (Option Nat)
  keyAllowed : Bool
  keys : List (Option PossibleKey)

namespace Scanner

/-- The scanner at the beginning of a text. -/
def start (cs : List Char) : Scanner :=
  ⟨.start cs, #[], 0, none, [], true, [none]⟩

/-- Whether the scanner is inside brackets. -/
def inFlow (s : Scanner) : Bool :=
  s.flow ≠ 0

/-- Adds a lexeme. -/
def emit (s : Scanner) (l : Lexeme) : Scanner :=
  { s with lexemes := s.lexemes.push l }

/-- Puts a lexeme before those from `position` on. -/
def insert (s : Scanner) (position : Nat) (l : Lexeme) : Scanner :=
  { s with lexemes := (s.lexemes.extract 0 position).push l ++ s.lexemes.extract position }

/-! ### Possible keys -/

/-- The possible key of the innermost level. -/
def currentKey (s : Scanner) : Option PossibleKey :=
  s.keys.head?.join

/-- Replaces the possible key of the innermost level. -/
def setKey (s : Scanner) (k : Option PossibleKey) : Scanner :=
  { s with keys := k :: s.keys.drop 1 }

/-- Gives up the possible key of the innermost level, which must not be a required one. -/
def dropKey (s : Scanner) : Option Scanner :=
  match s.currentKey with
  | some k => if k.required then none else some (s.setKey none)
  | none => some s

/-- Whether a possible key lies too far back: on an earlier line, or more than 1024 bytes. -/
def isStale (s : Scanner) (k : PossibleKey) : Bool :=
  decide (k.line < s.cursor.line) || decide (k.index + 1024 < s.cursor.index)

/-- Gives up all possible keys that lie too far back. -/
def dropStaleKeys (s : Scanner) : Option Scanner :=
  let stale (k : Option PossibleKey) : Bool := (k.map s.isStale).getD false
  if s.keys.any fun k => stale k && (k.map (·.required)).getD false then none
  else some { s with keys := s.keys.map fun k => if stale k then none else k }

/-- Remembers that a key may begin at the cursor. In a block it is required if it stands at the
block's column. -/
def saveKey (s : Scanner) : Option Scanner :=
  if s.keyAllowed then do
    let required := !s.inFlow && s.indent == some s.cursor.column
    let s' ← s.dropKey
    let here := s.cursor
    return s'.setKey (some ⟨required, s.lexemes.size, here.index, here.line, here.column⟩)
  else some s

/-! ### Indentation -/

/-- Closes the blocks whose column is greater than `column`, or all of them for `none`. -/
def unroll (s : Scanner) (column : Option Nat) : Scanner :=
  if s.inFlow then s
  else
    let isInner (i : Option Nat) : Bool := match i, column with
      | some i, some c => decide (c < i)
      | some _, none => true
      | none, _ => false
    let all := s.indent :: s.indents
    let left := all.dropWhile isInner
    { s with
      lexemes := s.lexemes ++ Array.replicate (all.length - left.length) .blockEnd
      indent := left.head?.join
      indents := left.drop 1 }

/-- Opens a block at `column` if it lies further in than the innermost block; the lexeme goes to
`position`, or to the end. -/
def roll (s : Scanner) (column : Nat) (position : Option Nat) (l : Lexeme) : Scanner :=
  let opens := !s.inFlow && match s.indent with
    | some i => decide (i < column)
    | none => true
  if opens then
    let s := { s with indents := s.indent :: s.indents, indent := some column }
    match position with
    | some p => s.insert p l
    | none => s.emit l
  else s

/-! ### Blanks between lexemes -/

/-- Skips blanks, comments and line breaks, at most `fuel` lines. In a block a new line allows a
key. Tabs count as blanks where they cannot be taken for indentation. A byte order mark may begin
a line. -/
def skipGapFrom : Nat → Scanner → Scanner
  | 0, s => s
  | fuel + 1, s =>
    let c := if s.cursor.column = 0 ∧ s.cursor.at? '\ufeff' then s.cursor.skip else s.cursor
    let tabs := s.inFlow || !s.keyAllowed
    let c := c.skipWhile fun ch => ch == ' ' || (tabs && ch == '\t')
    let c := if c.at? '#' then c.skipLine else c
    match c.rest with
    | ch :: _ =>
      if isBreak ch then
        skipGapFrom fuel { s with cursor := c.skipBreak, keyAllowed := s.keyAllowed || !s.inFlow }
      else { s with cursor := c }
    | [] => { s with cursor := c }

/-- Skips to the next lexeme. -/
def skipGap (s : Scanner) : Scanner :=
  skipGapFrom (s.cursor.rest.length + 1) s

/-! ### Names -/

/-- Past `n` characters. -/
def advance (s : Scanner) (n : Nat) : Scanner :=
  { s with cursor := s.cursor.skipMany n }

/-- An anchor or an alias at the cursor. -/
def nameLexeme (s : Scanner) (make : String → Lexeme) : Option Scanner := do
  let s ← s.saveKey
  let c := s.cursor.skip
  let name := c.rest.takeWhile isWordChar
  let c := c.skipMany name.length
  let ends := c.blankAt 0 || (c.rest.head?.map fun ch =>
    ['?', ':', ',', ']', '\x7d', '%', '@', '\x60'].contains ch).getD false
  if name.isEmpty || !ends then none
  else some { s.emit (make (String.ofList name)) with cursor := c, keyAllowed := false }

/-- A tag at the cursor. -/
def tagLexeme (s : Scanner) : Option Scanner := do
  let s ← s.saveKey
  let (handle, suffix, c) ← Tag.read s.cursor
  if c.blankAt 0 || (s.inFlow && c.at? ',') then
    some { s.emit (.tag handle suffix) with cursor := c, keyAllowed := false }
  else none

/-! ### The lexeme at the cursor -/

/-- The end of the text. -/
def finish (s : Scanner) : Option Scanner := do
  let s ← (s.unroll none).dropKey
  return { s.emit .streamEnd with keyAllowed := false }

/-- A directive at the cursor. -/
def directiveLexeme (s : Scanner) : Option Scanner := do
  let s ← (s.unroll none).dropKey
  let (d, c) ← Directive.read s.cursor
  return { s.emit (.directive d) with cursor := c, keyAllowed := false }

/-- A marker of three characters at the beginning of a line. -/
def marker (s : Scanner) (l : Lexeme) : Option Scanner := do
  let s ← (s.unroll none).dropKey
  return { (s.emit l).advance 3 with keyAllowed := false }

/-- An opening bracket. -/
def openFlow (s : Scanner) (l : Lexeme) : Option Scanner := do
  let s ← s.saveKey
  return { (s.emit l).advance 1 with
    keys := none :: s.keys, flow := s.flow + 1, keyAllowed := true }

/-- A closing bracket. -/
def closeFlow (s : Scanner) (l : Lexeme) : Option Scanner := do
  let s ← s.dropKey
  let s := if s.inFlow then { s with keys := s.keys.drop 1, flow := s.flow - 1 } else s
  return { (s.emit l).advance 1 with keyAllowed := false }

/-- The comma between items in brackets. -/
def flowEntry (s : Scanner) : Option Scanner := do
  let s ← s.dropKey
  return { (s.emit .flowEntry).advance 1 with keyAllowed := true }

/-- The dash before an item of a block. -/
def blockEntry (s : Scanner) : Option Scanner := do
  let s ← if s.inFlow then some s
    else if s.keyAllowed then some (s.roll s.cursor.column none .blockSequenceStart)
    else none
  let s ← s.dropKey
  return { (s.emit .blockEntry).advance 1 with keyAllowed := true }

/-- The question mark before a key. -/
def explicitKey (s : Scanner) : Option Scanner := do
  let s ← if s.inFlow then some s
    else if s.keyAllowed then some (s.roll s.cursor.column none .blockMappingStart)
    else none
  let s ← s.dropKey
  return { (s.emit .key).advance 1 with keyAllowed := !s.inFlow }

/-- The colon before a value. After a possible key the lexemes of that key are put in. -/
def value (s : Scanner) : Option Scanner := do
  let s ← match s.currentKey with
    | some k =>
      let s := (s.insert k.position .key).roll k.column (some k.position) .blockMappingStart
      some { s.setKey none with keyAllowed := false }
    | none =>
      if s.inFlow then some { s with keyAllowed := false }
      else if s.keyAllowed then
        some { s.roll s.cursor.column none .blockMappingStart with keyAllowed := true }
      else none
  return (s.emit .value).advance 1

/-- A block scalar. -/
def blockLexeme (s : Scanner) (literal : Bool) : Option Scanner := do
  let s ← s.dropKey
  let (text, c) ← blockScalar literal s.indent s.cursor
  return { s.emit (.scalar false text) with cursor := c, keyAllowed := true }

/-- A quoted scalar. -/
def quotedLexeme (s : Scanner) (single : Bool) : Option Scanner := do
  let s ← s.saveKey
  let (text, c) ← quoted single s.cursor
  return { s.emit (.scalar false text) with cursor := c, keyAllowed := false }

/-- A plain scalar. A line break after it allows a key. -/
def plainLexeme (s : Scanner) : Option Scanner := do
  let s ← s.saveKey
  let indent := match s.indent with
    | some i => i + 1
    | none => 0
  let (text, c, broken) ← plainScalar s.inFlow indent s.cursor
  return { s.emit (.scalar true text) with cursor := c, keyAllowed := broken }

/-- Characters that begin a plain scalar only in some places, or never. -/
def indicators : List Char :=
  ['-', '?', ':', ',', '[', ']', '\x7b', '\x7d', '#', '&', '*', '!', '|', '>', '\'', '"', '%', '@',
    '\x60']

/-- Whether a plain scalar begins at the cursor with the character `ch`. -/
def beginsPlain (s : Scanner) (ch : Char) : Bool :=
  let nextIsSpace := ((s.cursor.peek 1).map isSpace).getD false
  !(isSpace ch || indicators.contains ch) || (ch == '-' && !nextIsSpace) ||
    (!s.inFlow && (ch == '?' || ch == ':') && !s.cursor.blankAt 1)

/-- Reads the lexeme at the cursor, which stands on the character `ch`. -/
def lexemeAt (s : Scanner) (ch : Char) : Option Scanner :=
  let c := s.cursor
  if c.column = 0 ∧ ch = '%' then s.directiveLexeme
  else if c.atMarker then s.marker (if ch = '-' then .documentStart else .documentEnd)
  else if ch = '[' then s.openFlow .flowSequenceStart
  else if ch = '\x7b' then s.openFlow .flowMappingStart
  else if ch = ']' then s.closeFlow .flowSequenceEnd
  else if ch = '\x7d' then s.closeFlow .flowMappingEnd
  else if ch = ',' then s.flowEntry
  else if ch = '-' ∧ c.blankAt 1 then s.blockEntry
  else if ch = '?' ∧ (s.inFlow ∨ c.blankAt 1) then s.explicitKey
  else if ch = ':' ∧ (s.inFlow ∨ c.blankAt 1) then s.value
  else if ch = '*' then s.nameLexeme .aliasOf
  else if ch = '&' then s.nameLexeme .anchor
  else if ch = '!' then s.tagLexeme
  else if ch = '|' ∧ ¬s.inFlow then s.blockLexeme true
  else if ch = '>' ∧ ¬s.inFlow then s.blockLexeme false
  else if ch = '\'' then s.quotedLexeme true
  else if ch = '"' then s.quotedLexeme false
  else if s.beginsPlain ch then s.plainLexeme
  else none

/-- Reads all lexemes, at most `fuel` of them. -/
def scanFrom : Nat → Scanner → Option Scanner
  | 0, _ => none
  | fuel + 1, s => do
    let s ← s.skipGap.dropStaleKeys
    let s := s.unroll (some s.cursor.column)
    match s.cursor.rest with
    | [] => s.finish
    | ch :: _ => scanFrom fuel (← s.lexemeAt ch)

end Scanner

/-- The lexemes of a text, `none` if it is malformed or holds a character that is not allowed. -/
def lexemes (cs : List Char) : Option (List Lexeme) :=
  if cs.all isAllowed then
    (Scanner.scanFrom (cs.length + 2) (.start cs)).map fun s => s.lexemes.toList
  else none

end DesignSystem.Yaml
