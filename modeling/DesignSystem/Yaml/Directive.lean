import DesignSystem.Yaml.Tag
/-!
# Directives

A line that begins with a percent sign tells about the document after it: the version it is written
for, or what a handle in its tags stands for.
-/

namespace DesignSystem.Yaml

/-- A directive. -/
inductive Directive where
  | version (major minor : Nat)
  | handle (handle lead : String)
  deriving DecidableEq

namespace Directive

/-- A number of at most nine digits, and the place after it. -/
def number? (c : Cursor) : Option (Nat × Cursor) :=
  let ds := (Json.digitRun c.rest).1
  if ds.isEmpty ∨ 9 < ds.length then none
  else some (ds.foldl (fun n d => 10 * n + d) 0, c.skipMany ds.length)

/-- Two numbers with a point between them. -/
def version? (c : Cursor) : Option (Directive × Cursor) := do
  let (major, c) ← number? c
  if c.at? '.' then
    let (minor, c) ← number? c.skip
    return (.version major minor, c)
  else none

/-- A handle, which may be a lone exclamation mark, and what it stands for. -/
def handle? (c : Cursor) : Option (Directive × Cursor) := do
  let (name, c) ← if c.at? '!' then
      match Tag.handle? c with
      | some h => some h
      | none => if (Tag.handleWord c).isEmpty then some ("!", c.skip) else none
    else none
  if (c.rest.head?.map isSpace).getD false then
    let (lead, c) ← Tag.uri? true (c.skipWhile isSpace)
    if c.blankAt 0 then some (.handle name lead, c) else none
  else none

/-- Past the rest of a line that holds only blanks and a comment. -/
def skipEmptyLine? (c : Cursor) : Option Cursor :=
  let c := c.skipWhile isSpace
  let c := if c.at? '#' then c.skipLine else c
  match c.rest with
  | [] => some c
  | ch :: _ => if isBreak ch then some c.skipBreak else none

/-- The directive at the cursor, and the place after its line. -/
def read (c : Cursor) : Option (Directive × Cursor) := do
  let name := c.skip.rest.takeWhile isWordChar
  let c := c.skipMany (1 + name.length)
  let body := c.skipWhile isSpace
  let (d, c) ← if !c.blankAt 0 then none
    else if name = ['Y', 'A', 'M', 'L'] then version? body
    else if name = ['T', 'A', 'G'] then handle? body
    else none
  return (d, ← skipEmptyLine? c)

end Directive

end DesignSystem.Yaml
