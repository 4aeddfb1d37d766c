import DesignSystem.Token
import DesignSystem.Json.Record
/-!
# Reading single tokens

A token by itself is a record of its value, its type and perhaps a description. Nothing is
inferred: the type must be given and be one of the kinds.
-/

namespace DesignSystem.Token

/-- Reads the record of a token. -/
def ofSource (depth : Nat) (s : Json.Source) : Option Token :=
  Json.Source.opened depth fun depth => do
    match ← s.fields ["value", "type", "description"] with
    | [some value, some kind, description] =>
      let value ← value.text
      let kind ← Kind.ofName? (← kind.alternative depth)
      let description ← Json.Source.optionalText description
      return ⟨value, kind, description⟩
    | _ => none

/-- Reads a token from its text. -/
def read (text : String) : Option Token :=
  (Json.Source.ofString text).bind (ofSource Json.maxDepth)

end DesignSystem.Token
