import DesignSystem.Tree.Basic
/-!
# Following aliases

A chain of aliases is followed from token to token until it reaches a literal, a path without a
token, or a path that it has passed before. Each round passes a token that was not passed before,
so there are no more rounds than tokens and one.
-/

namespace DesignSystem.Tree

/-- Why a chain of aliases does not end in a literal. -/
inductive AliasError where
  | missing (path : String)
  | unresolved (source target : String)
  | cycle (path : List String)
  deriving DecidableEq

/-- The text of an error. -/
def AliasError.message : AliasError → String
  | .missing path => "no token at '" ++ path ++ "'"
  | .unresolved source target =>
    "token '" ++ source ++ "' aliases non-existent token '" ++ target ++ "'"
  | .cycle path => "cycle detected in token aliases: " ++ " -> ".intercalate path

/-- The addresses of tokens that a chain has not passed. -/
def unvisited (t : Tree) (visited : List String) : List String :=
  t.addresses.filter fun a => !visited.contains a

theorem unvisited_length_lt {t : Tree} {visited : List String} {path : String}
    (hNew : path ∉ visited) (hMem : path ∈ t.addresses) :
    (t.unvisited (visited ++ [path])).length < (t.unvisited visited).length := by
  have hFilter : t.unvisited (visited ++ [path]) =
      (t.unvisited visited).filter fun a => !(a == path) := by
    simp only [unvisited, List.filter_filter]
    refine List.filter_congr fun a _ => ?_
    by_cases h : a = path <;> simp [h]
  rw [hFilter]
  refine List.length_filter_lt_length_iff_exists.2 ⟨path, ?_, by simp⟩
  simp [unvisited, hMem, hNew]

/-- Follows the chain that has passed `visited` and stands at `current`. -/
def follow (t : Tree) (visited : List String) (current : String) : Except AliasError String :=
  if _ : current ∈ visited then .error (.cycle (visited ++ [current]))
  else match _h : t.token? current with
    | none => match visited.getLast? with
      | none => .error (.missing current)
      | some source => .error (.unresolved source current)
    | some token => match token.parsed with
      | .literal text => .ok text
      | .aliasTo target => t.follow (visited ++ [current]) target.dotted
termination_by (t.unvisited visited).length
decreasing_by exact unvisited_length_lt ‹_› (mem_addresses_of_token? ‹_›)

/-- The literal at the end of the chain of aliases that begins at a path. -/
def resolve (t : Tree) (path : String) : Except AliasError String :=
  t.follow [] path

end DesignSystem.Tree
