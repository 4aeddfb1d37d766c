import DesignSystem.Json.Reader
/-!
# Reading records

A record is written as an object with its fields in any order, or as an array of their values in
the order of the record. Unknown fields are skipped without looking at their values; a repeated
field makes the record unreadable. Each reader takes the number of levels that may still be opened.
-/

namespace DesignSystem.Json.Source

/-- Cuts one level off the depth. -/
def opened {α : Type} (depth : Nat) (f : Nat → Option α) : Option α :=
  match depth with
  | 0 => none
  | depth + 1 => f depth

/-- The entries with their keys decoded. -/
def decodeKeys : List (List Piece × Source) → Option (List (String × Source))
  | [] => some []
  | (k, s) :: rest => do
    let key ← decodeText k
    let rest ← decodeKeys rest
    return (key, s) :: rest

/-- The only value under `name`, if there is one; no answer if there are several. -/
def single (entries : List (String × Source)) (name : String) : Option (Option Source) :=
  match entries.filter fun e => e.1 == name with
  | [] => some none
  | [e] => some (some e.2)
  | _ => none

/-- The values of the fields `names`, where given. -/
def fields (names : List String) : Source → Option (List (Option Source))
  | .object entries => do
    let entries ← decodeKeys entries
    names.mapM (single entries)
  | .array items =>
    if items.length ≤ names.length then
      some (items.map some ++ List.replicate (names.length - items.length) none)
    else none
  | _ => none

/-- A string. -/
def text : Source → Option String
  | .string pieces => decodeText pieces
  | _ => none

/-- A string that may be null or missing. -/
def optionalText : Option Source → Option (Option String)
  | none | some .null => some none
  | some s => (text s).map some

/-- The name of one of several alternatives: a string, or an object whose only entry is null under
the name. -/
def alternative (depth : Nat) : Source → Option String
  | .string pieces => decodeText pieces
  | .object [(k, .null)] => opened depth fun _ => decodeText k
  | _ => none

/-- A list of values. -/
def list {α : Type} (depth : Nat) (item : Nat → Source → Option α) : Source → Option (List α)
  | .array items => opened depth fun depth => items.mapM (item depth)
  | _ => none

end DesignSystem.Json.Source
