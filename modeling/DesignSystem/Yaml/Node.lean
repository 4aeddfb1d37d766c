import DesignSystem.Yaml.Lexeme
/-!
# Nodes

The grammar that puts lexemes together to nodes: scalars, sequences and mappings with their anchors
and tags, and aliases. Where an item, a key or a value is left out there is an empty plain scalar.
Every reader takes the lexemes ahead and returns a node with the lexemes after it; `fuel` bounds
the steps and is never used up.
-/

namespace DesignSystem.Yaml

/-- An anchor and a tag, either of which may be missing. -/
structure Properties where
  anchor : Option String
  tag : Option String

/-- A node of a text. -/
inductive Node where
  | aliasOf (name : String)
  | scalar (properties : Properties) (isPlain : Bool) (text : String)
  | sequence (properties : Properties) (items : List Node)
  | mapping (properties : Properties) (entries : List (Node × Node))

namespace Node

/-- No anchor and no tag. -/
def bare : Properties :=
  ⟨none, none⟩

/-- The scalar that stands for a node left out. -/
def empty : Node :=
  .scalar bare true ""

/-- The anchor and the tag in front of a node, in either order. -/
def properties : List Lexeme → Properties × List Lexeme
  | .anchor a :: .tag _ t :: rest => (⟨some a, some t⟩, rest)
  | .anchor a :: rest => (⟨some a, none⟩, rest)
  | .tag _ t :: .anchor a :: rest => (⟨some a, some t⟩, rest)
  | .tag _ t :: rest => (⟨none, some t⟩, rest)
  | rest => (bare, rest)

/-- Whether the next lexeme is one of `ls`. -/
def ahead (ls : List Lexeme) (rest : List Lexeme) : Bool :=
  (rest.head?.map ls.contains).getD true

mutual

/-- A node. `block` allows blocks, and `indentless` a sequence at the column of its parent. -/
def read (block indentless : Bool) : Nat → List Lexeme → Option (Node × List Lexeme)
  | 0, _ => none
  | fuel + 1, ls => match ls with
    | .aliasOf name :: rest => some (.aliasOf name, rest)
    | _ =>
      let (p, rest) := properties ls
      match rest with
      | .blockEntry :: _ =>
        if indentless then
          (indentlessItems fuel rest).map fun (xs, rest) => (.sequence p xs, rest)
        else unmarked p rest
      | .scalar isPlain text :: rest => some (.scalar p isPlain text, rest)
      | .flowSequenceStart :: rest =>
        (flowItems true fuel rest).map fun (xs, rest) => (.sequence p xs, rest)
      | .flowMappingStart :: rest =>
        (flowPairs true fuel rest).map fun (es, rest) => (.mapping p es, rest)
      | .blockSequenceStart :: rest =>
        if block then (blockItems fuel rest).map fun (xs, rest) => (.sequence p xs, rest)
        else unmarked p (.blockSequenceStart :: rest)
      | .blockMappingStart :: rest =>
        if block then (blockPairs fuel rest).map fun (es, rest) => (.mapping p es, rest)
        else unmarked p (.blockMappingStart :: rest)
      | rest => unmarked p rest

/-- A node without content, which needs an anchor or a tag. -/
def unmarked (p : Properties) (rest : List Lexeme) : Option (Node × List Lexeme) :=
  if p.anchor.isSome || p.tag.isSome then some (.scalar p true "", rest) else none

/-- A node, or an empty scalar if the next lexeme is one of `stops`. -/
def readUnless (stops : List Lexeme) (block indentless : Bool) :
    Nat → List Lexeme → Option (Node × List Lexeme)
  | 0, _ => none
  | fuel + 1, ls => if ahead stops ls then some (empty, ls) else read block indentless fuel ls

/-- The items of a block sequence, up to its end. -/
def blockItems : Nat → List Lexeme → Option (List Node × List Lexeme)
  | 0, _ => none
  | fuel + 1, ls => match ls with
    | .blockEntry :: rest => do
      let (x, rest) ← readUnless [.blockEntry, .blockEnd] true false fuel rest
      let (xs, rest) ← blockItems fuel rest
      return (x :: xs, rest)
    | .blockEnd :: rest => some ([], rest)
    | _ => none

/-- The items of a sequence at the column of its parent. -/
def indentlessItems : Nat → List Lexeme → Option (List Node × List Lexeme)
  | 0, _ => none
  | fuel + 1, ls => match ls with
    | .blockEntry :: rest => do
      let (x, rest) ← readUnless [.blockEntry, .key, .value, .blockEnd] true false fuel rest
      let (xs, rest) ← indentlessItems fuel rest
      return (x :: xs, rest)
    | _ => some ([], ls)

/-- The entries of a block mapping, up to its end. -/
def blockPairs : Nat → List Lexeme → Option (List (Node × Node) × List Lexeme)
  | 0, _ => none
  | fuel + 1, ls => match ls with
    | .key :: rest => do
      let (k, rest) ← readUnless [.key, .value, .blockEnd] true true fuel rest
      let (v, rest) ← match rest with
        | .value :: rest => readUnless [.key, .value, .blockEnd] true true fuel rest
        | _ => some (empty, rest)
      let (es, rest) ← blockPairs fuel rest
      return ((k, v) :: es, rest)
    | .blockEnd :: rest => some ([], rest)
    | _ => none

/-- The items of a sequence in brackets, after the opening bracket or, unless `first`, after an
item. An item may be a single entry of a mapping. -/
def flowItems (first : Bool) : Nat → List Lexeme → Option (List Node × List Lexeme)
  | 0, _ => none
  | fuel + 1, ls => match ls with
    | .flowSequenceEnd :: rest => some ([], rest)
    | _ =>
      let ls? := if first then some ls else match ls with
        | .flowEntry :: rest => some rest
        | _ => none
      match ls? with
      | none => none
      | some (.flowSequenceEnd :: rest) => some ([], rest)
      | some (.key :: rest) => do
        let (k, rest) ← if ahead [.value, .flowEntry, .flowSequenceEnd] rest
          then some (empty, rest.drop 1) else read false false fuel rest
        let (v, rest) ← match rest with
          | .value :: rest => readUnless [.flowEntry, .flowSequenceEnd] false false fuel rest
          | _ => some (empty, rest)
        let (xs, rest) ← flowItems false fuel rest
        return (.mapping bare [(k, v)] :: xs, rest)
      | some rest => do
        let (x, rest) ← read false false fuel rest
        let (xs, rest) ← flowItems false fuel rest
        return (x :: xs, rest)

/-- The entries of a mapping in brackets, after the opening bracket or, unless `first`, after an
entry. A node alone is a key with an empty value. -/
def flowPairs (first : Bool) : Nat → List Lexeme → Option (List (Node × Node) × List Lexeme)
  | 0, _ => none
  | fuel + 1, ls => match ls with
    | .flowMappingEnd :: rest => some ([], rest)
    | _ =>
      let ls? := if first then some ls else match ls with
        | .flowEntry :: rest => some rest
        | _ => none
      match ls? with
      | none => none
      | some (.flowMappingEnd :: rest) => some ([], rest)
      | some (.key :: rest) => do
        let (k, rest) ← readUnless [.value, .flowEntry, .flowMappingEnd] false false fuel rest
        let (v, rest) ← match rest with
          | .value :: rest => readUnless [.flowEntry, .flowMappingEnd] false false fuel rest
          | _ => some (empty, rest)
        let (es, rest) ← flowPairs false fuel rest
        return ((k, v) :: es, rest)
      | some rest => do
        let (k, rest) ← read false false fuel rest
        let (es, rest) ← flowPairs false fuel rest
        return ((k, empty) :: es, rest)

end

/-! ### Documents -/

/-- What handles in tags stand for. -/
abbrev Handles := List (String × String)

/-- What handles stand for without directives. -/
def commonHandles : Handles :=
  [("!", "!"), ("!!", "tag:yaml.org,2002:")]

/-- A lexeme with its handle, if it has one, replaced by what that stands for. -/
def withHandle? (handles : Handles) : Lexeme → Option Lexeme
  | .tag handle suffix =>
    if handle = "" then some (.tag "" suffix)
    else (handles.lookup handle).map fun lead => .tag "" (lead ++ suffix)
  | l => some l

/-- What the directives in front say about handles, and the lexemes after them. There may be one
version, `1.1` or `1.2`, and one directive for a handle. -/
def directives? (versioned : Bool) (handles : Handles) :
    List Lexeme → Option (Handles × List Lexeme)
  | .directive (.version major minor) :: rest =>
    if versioned ∨ major ≠ 1 ∨ (minor ≠ 1 ∧ minor ≠ 2) then none
    else directives? true handles rest
  | .directive (.handle name lead) :: rest =>
    if (handles.lookup name).isSome then none
    else directives? versioned ((name, lead) :: handles) rest
  | rest => some (handles ++ commonHandles, rest)

/-- The node of a document from the lexemes after its start, if there is no other document. -/
def ofContent (ls : List Lexeme) : Option Node :=
  let atEnd (rest : List Lexeme) : Bool :=
    rest.dropWhile (· == .documentEnd) == [.streamEnd]
  if ahead [.documentStart, .documentEnd, .streamEnd] ls then
    if atEnd ls then some empty else none
  else match read true false (4 * ls.length + 8) ls with
    | some (n, rest) => if atEnd rest then some n else none
    | none => none

/-- The node of the only document among the lexemes; `some none` if there is no document. -/
def ofLexemes (ls : List Lexeme) : Option (Option Node) :=
  match ls with
  | [.streamEnd] => some none
  | .documentEnd :: _ => none
  | _ => do
    let (handles, rest) ← directives? false [] ls
    let rest ← rest.mapM (withHandle? handles)
    match ls, rest with
    | _, .documentStart :: rest => return some (← ofContent rest)
    | .directive _ :: _, _ => none
    | _, rest => return some (← ofContent rest)

end Node

end DesignSystem.Yaml
