import DesignSystem.Disk
import DesignSystem.Tree.Edit
import DesignSystem.Json.Reader
import DesignSystem.Json.Printer
import DesignSystem.Yaml.Reader
/-!
# Trees as documents

A document becomes a tree by one rule: an object with a `value` is a token, any other object is a
group, and everything else is metadata. The root is a group in any case. A token's value that
is not a string is kept as its compact text, and a missing or unknown type is inferred from the
path.
-/

namespace DesignSystem.Tree

/-- Why a tree could not be loaded. -/
inductive LoadError where
  | unreadable (failure : Disk.Failure)
  | unsupportedFormat (path : String)
  | malformedJson
  | malformedYaml
  | notAnObject (found : String)
  deriving DecidableEq

/-- The text of an error; there is none for errors of the formats. -/
def LoadError.message? : LoadError → Option String
  | .unreadable failure => some ("failed to read " ++ failure.text)
  | .unsupportedFormat path =>
    some ("unsupported token file '" ++ path ++ "': expected .json, .yaml or .yml")
  | .notAnObject found => some ("token tree must be an object, found " ++ found)
  | .malformedJson | .malformedYaml => none

/-- The token of an object at a path. -/
def tokenOfEntries (path : List String) (entries : Keyed Json) : Token where
  value := match Keyed.get? entries "value" with
    | some (.string s) => s
    | some j => j.compact
    | none => ""
  kind := (((Keyed.get? entries "type").bind Json.asString?).bind Token.Kind.ofName?).getD
    (Token.Kind.infer path)
  description := (Keyed.get? entries "description").bind Json.asString?

namespace Node

mutual

/-- The node of a document at a path. -/
def ofJson (path : List String) : Json → Node
  | .object entries =>
    if Keyed.has entries "value" then .token (tokenOfEntries path entries)
    else .group (Keyed.ofList (membersOfEntries path entries))
  | j => .metadata j

/-- The nodes of the entries of an object at a path. -/
def membersOfEntries (path : List String) : List (String × Json) → List (String × Node)
  | [] => []
  | (key, j) :: rest => (key, ofJson (path ++ [key]) j) :: membersOfEntries path rest

end

/-- A group put together from ordered nodes is ordered. -/
theorem ordered_group_ofList {members : List (String × Node)} (h : ∀ e ∈ members, e.2.Ordered) :
    (Node.group (Keyed.ofList members)).Ordered :=
  Ordered.setAll ⟨Keyed.ordered_nil, trivial⟩ h

mutual

theorem ordered_ofJson (path : List String) : (j : Json) → (ofJson path j).Ordered
  | .object entries => by
    simp only [ofJson]
    split
    · trivial
    · exact ordered_group_ofList (ordered_membersOfEntries path entries)
  | .null | .bool _ | .number _ | .string _ | .array _ => trivial

theorem ordered_membersOfEntries (path : List String) :
    (entries : List (String × Json)) → ∀ e ∈ membersOfEntries path entries, e.2.Ordered
  | [], _, he => by cases he
  | (key, j) :: rest, e, he => by
    rcases List.mem_cons.1 he with he | he
    · exact he ▸ ordered_ofJson (path ++ [key]) j
    · exact ordered_membersOfEntries path rest e he

end

mutual

/-- The document of a node. -/
def toJson : Node → Json
  | .token t => t.toJson
  | .group members => .object (membersToJson members)
  | .metadata v => v

/-- The documents of the members of a group. -/
def membersToJson : List (String × Node) → List (String × Json)
  | [] => []
  | (key, n) :: rest => (key, toJson n) :: membersToJson rest

end

end Node

/-- The tree of a document, which must be an object. -/
def ofJson (j : Json) : Except LoadError Tree :=
  match j with
  | .object entries =>
    .ok ⟨Keyed.ofList (Node.membersOfEntries [] entries),
      Node.ordered_group_ofList (Node.ordered_membersOfEntries [] entries)⟩
  | other => .error (.notAnObject other.describe)

/-- The document of a tree. -/
def toJson (t : Tree) : Json :=
  t.asNode.toJson

/-- The tree of a JSON text. -/
def readJson (text : String) : Except LoadError Tree :=
  match Json.read text with
  | some j => ofJson j
  | none => .error .malformedJson

/-- The tree of a YAML text. -/
def readYaml (text : String) : Except LoadError Tree :=
  match Yaml.read text with
  | some y => ofJson y.toJson
  | none => .error .malformedYaml

/-! ### Files -/

/-- The formats of token files. -/
inductive Format where
  | json
  | yaml
  deriving DecidableEq

/-- The endings of the names of token files, each with its format. -/
def fileEndings : List (String × Format) :=
  [(".json", .json), (".yaml", .yaml), (".yml", .yaml)]

/-- The format that a file name announces. -/
def format? (name : String) : Option Format :=
  (fileEndings.find? fun e => Text.endsWith name e.1).map Prod.snd

/-- The tree of a text in the given format. -/
def readAs (format : Format) (text : String) : Except LoadError Tree :=
  match format with
  | .json => readJson text
  | .yaml => readYaml text

end DesignSystem.Tree
