import DesignSystem.Yaml.Node
import DesignSystem.Keyed
/-!
# Links

Anchors get numbers: the number of a node is the count of the names given before it. A name that is
given anew gets a number anew, which the next new name then shares. An alias takes the number that
its name has where the alias stands, and that number leads to the last node that got it.
-/

namespace DesignSystem.Yaml

/-- A node with numbers for its aliases and with the tags that its nodes have. -/
inductive Linked where
  | link (number : Nat)
  | scalar (tag : Option String) (isPlain : Bool) (text : String)
  | sequence (tag : Option String) (items : List Linked)
  | mapping (tag : Option String) (entries : List (Linked × Linked))

/-- The numbers of the names given so far, and the nodes of the numbers, the latest first; a node
that is still being read is missing. -/
structure Links where
  numbers : Keyed Nat
  nodes : List (Nat × Option Linked)

namespace Links

/-- No links. -/
def empty : Links :=
  ⟨[], []⟩

/-- Gives a number to the name of a node that begins, if it has a name. -/
def start (p : Properties) (links : Links) : Links :=
  match p.anchor with
  | some a =>
    let number := links.numbers.length
    ⟨Keyed.set links.numbers a number, (number, none) :: links.nodes⟩
  | none => links

/-- The nodes with the latest missing one filled in. -/
def fillLatest (node : Linked) : List (Nat × Option Linked) → List (Nat × Option Linked)
  | [] => []
  | (n, none) :: rest => (n, some node) :: rest
  | (n, some other) :: rest => (n, some other) :: fillLatest node rest

/-- Fills in a node that ends, if it has a name. -/
def finish (p : Properties) (node : Linked) (links : Links) : Links :=
  match p.anchor with
  | some _ => { links with nodes := fillLatest node links.nodes }
  | none => links

/-- The node that a number leads to. -/
def target? (links : Links) (number : Nat) : Option Linked :=
  (links.nodes.lookup number).join

end Links

namespace Node

mutual

/-- A node with its links, after those of the nodes before it. -/
def link (links : Links) : Node → Option (Linked × Links)
  | .aliasOf name => (Keyed.get? links.numbers name).map fun n => (.link n, links)
  | .scalar p isPlain text =>
    let node := .scalar p.tag isPlain text
    some (node, (links.start p).finish p node)
  | .sequence p items => do
    let (xs, links) ← linkItems (links.start p) items
    let node := .sequence p.tag xs
    return (node, links.finish p node)
  | .mapping p entries => do
    let (es, links) ← linkEntries (links.start p) entries
    let node := .mapping p.tag es
    return (node, links.finish p node)

/-- The items of a sequence with their links. -/
def linkItems (links : Links) : List Node → Option (List Linked × Links)
  | [] => some ([], links)
  | x :: xs => do
    let (y, links) ← link links x
    let (ys, links) ← linkItems links xs
    return (y :: ys, links)

/-- The entries of a mapping with their links. -/
def linkEntries (links : Links) : List (Node × Node) → Option (List (Linked × Linked) × Links)
  | [] => some ([], links)
  | (k, v) :: es => do
    let (k, links) ← link links k
    let (v, links) ← link links v
    let (es, links) ← linkEntries links es
    return ((k, v) :: es, links)

end

mutual

/-- The length of a node as a list of events: one for a scalar or an alias, two around a
collection. -/
def events : Node → Nat
  | .aliasOf _ | .scalar _ _ _ => 1
  | .sequence _ items => itemEvents items + 2
  | .mapping _ entries => entryEvents entries + 2

/-- The events of the items of a sequence. -/
def itemEvents : List Node → Nat
  | [] => 0
  | x :: xs => events x + itemEvents xs

/-- The events of the entries of a mapping. -/
def entryEvents : List (Node × Node) → Nat
  | [] => 0
  | (k, v) :: es => events k + events v + entryEvents es

end

end Node

end DesignSystem.Yaml
