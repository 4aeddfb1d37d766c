import DesignSystem.Yaml.Link
import DesignSystem.Yaml.Scalar
/-!
# Reading YAML

A node denotes a value once its aliases are replaced by the values of the nodes that they lead to.
Refused are keys that occur twice in a mapping, values of more than `maxDepth` levels, among them
those of nodes that hold an alias of themselves, and texts whose aliases expand to much more than is
written.
-/

namespace DesignSystem.Yaml

/-- The tag around a collection. Tags that do not begin with an exclamation mark are dropped. -/
def withTag (tag : Option String) (y : Yaml) : Yaml :=
  match tag with
  | some t => match t.toList with
    | ['!'] => .tagged t y
    | '!' :: name => .tagged (String.ofList name) y
    | _ => y
  | none => y

/-- Whether some key occurs again later. -/
def hasRepeatedKey : List (Yaml × Yaml) → Bool
  | [] => false
  | (k, _) :: es => es.any (fun e => sameKey k e.1) || hasRepeatedKey es

/-- A value, and how many aliases may still be expanded. -/
abbrev Expansion (α : Type) := Nat → Option (α × Nat)

namespace Linked

/-- The values of items one after the other. -/
def expandItems (value : Linked → Expansion Yaml) : List Linked → Expansion (List Yaml)
  | [], budget => some ([], budget)
  | x :: xs, budget => do
    let (y, budget) ← value x budget
    let (ys, budget) ← expandItems value xs budget
    return (y :: ys, budget)

/-- The keys and values of entries one after the other. -/
def expandEntries (value : Linked → Expansion Yaml) :
    List (Linked × Linked) → Expansion (List (Yaml × Yaml))
  | [], budget => some ([], budget)
  | (k, v) :: es, budget => do
    let (k, budget) ← value k budget
    let (v, budget) ← value v budget
    let (es, budget) ← expandEntries value es budget
    return ((k, v) :: es, budget)

/-- The node that an alias leads to; any other node is left as it is. -/
def follow (links : Links) : Linked → Expansion Linked
  | link _, 0 => none
  | link n, budget + 1 => (links.target? n).map (·, budget)
  | node, budget => some (node, budget)

/-- The value of a collection, its nodes having the values given, or of a scalar. -/
def combine (value : Linked → Expansion Yaml) : Linked → Expansion Yaml
  | link _, _ => none
  | scalar tag isPlain text, budget => (Scalar.resolve tag isPlain text).map (·, budget)
  | sequence tag items, budget => do
    let (ys, budget) ← expandItems value items budget
    return (withTag tag (.sequence ys), budget)
  | mapping tag entries, budget => do
    let (es, budget) ← expandEntries value entries budget
    if hasRepeatedKey es then none else return (withTag tag (.mapping es), budget)

/-- Whether a node is a collection. -/
def isCollection : Linked → Bool
  | sequence .. | mapping .. => true
  | link _ | scalar .. => false

/-- The value of a node that may have a number of levels of collections. -/
def expand (links : Links) : (levels : Nat) → Linked → Expansion Yaml
  | 0, node, budget => do
    let (node, budget) ← follow links node budget
    if node.isCollection then none else combine (fun _ _ => none) node budget
  | levels + 1, node, budget => do
    let (node, budget) ← follow links node budget
    combine (expand links levels) node budget

end Linked

/-- How many levels of sequences and mappings a value may have. -/
def maxDepth : Nat :=
  128

/-- How many alias expansions a text may have for each of its events. -/
def maxExpansion : Nat :=
  100

/-- The value that a text denotes; a text without a document denotes null. -/
def read (s : String) : Option Yaml := do
  let ls ← lexemes s.toList
  match ← Node.ofLexemes ls with
  | none => some .null
  | some node =>
    let (linked, links) ← node.link .empty
    let (y, _) ← linked.expand links maxDepth (maxExpansion * node.events)
    return y

end DesignSystem.Yaml
