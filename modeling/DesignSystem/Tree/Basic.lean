import DesignSystem.Token
/-!
# Trees of tokens

A tree nests groups of named nodes down to tokens. Whatever else a document holds, such as
descriptions of groups, is kept as metadata. The members of every group are in key order, each
key once; this is part of the type `Tree`, so two trees are equal as soon as their members are.

Nodes are addressed by dotted paths. `Tree.node?` looks a path up and `Tree.addresses` lists the
paths of all tokens; every path at which a token is found is among them
(`Tree.mem_addresses_of_token?`).
-/

namespace DesignSystem

namespace Tree

/-- A node of a tree. -/
inductive Node where
  | token (token : Token)
  | group (members : List (String × Node))
  | metadata (value : Json)

namespace Node

instance : Inhabited Node := ⟨.group []⟩

/-! ### Equality is decidable -/

mutual

/-- Decides equality of nodes. -/
protected def decEq : (a b : Node) → Decidable (a = b)
  | .token s, b => match b with
    | .token t => decidable_of_iff (s = t) (by simp)
    | .group _ | .metadata _ => .isFalse nofun
  | .group xs, b => match b with
    | .group ys => @decidable_of_iff _ (xs = ys) (by simp) (Node.decEqMembers xs ys)
    | .token _ | .metadata _ => .isFalse nofun
  | .metadata x, b => match b with
    | .metadata y => decidable_of_iff (x = y) (by simp)
    | .token _ | .group _ => .isFalse nofun

/-- Decides equality of the members of groups. -/
protected def decEqMembers : (xs ys : List (String × Node)) → Decidable (xs = ys)
  | [], [] => .isTrue rfl
  | [], _ :: _ | _ :: _, [] => .isFalse nofun
  | (k, x) :: xs, (l, y) :: ys =>
    @decidable_of_iff _ (k = l ∧ x = y ∧ xs = ys) (by simp [and_assoc])
      (@instDecidableAnd _ _ _ (@instDecidableAnd _ _ (Node.decEq x y) (Node.decEqMembers xs ys)))

end

instance : DecidableEq Node := Node.decEq

/-! ### Order -/

mutual

/-- The members of all groups in the node are in key order. -/
def Ordered : Node → Prop
  | .group members => Keyed.Ordered members ∧ MembersOrdered members
  | .token _ | .metadata _ => True

/-- Each of the members is ordered. -/
def MembersOrdered : List (String × Node) → Prop
  | [] => True
  | (_, n) :: rest => n.Ordered ∧ MembersOrdered rest

end

theorem membersOrdered_iff {members : List (String × Node)} :
    MembersOrdered members ↔ ∀ e ∈ members, e.2.Ordered := by
  induction members with
  | nil => simp [MembersOrdered]
  | cons e rest ih => simp [MembersOrdered, ih]

/-! ### Looking up -/

/-- The node at a path below a node. -/
def at? : Node → List String → Option Node
  | n, [] => some n
  | .group members, key :: rest => (Keyed.get? members key).bind fun n => n.at? rest
  | .token _, _ :: _ | .metadata _, _ :: _ => none

/-- The token of a node that is one. -/
def asToken? : Node → Option Token
  | .token t => some t
  | .group _ | .metadata _ => none

/-- The members of a node that is a group. -/
def asGroup? : Node → Option (Keyed Node)
  | .group members => some members
  | .token _ | .metadata _ => none

/-! ### The tokens of a node -/

mutual

/-- The paths from a node to its tokens. -/
def tokenPaths : Node → List (List String)
  | .token _ => [[]]
  | .group members => memberTokenPaths members
  | .metadata _ => []

/-- The paths from a group to its tokens. -/
def memberTokenPaths : List (String × Node) → List (List String)
  | [] => []
  | (key, n) :: rest => (tokenPaths n).map (key :: ·) ++ memberTokenPaths rest

end

theorem mem_memberTokenPaths {members : List (String × Node)} {key : String} {n : Node}
    {path : List String} (hGet : Keyed.get? members key = some n) (hPath : path ∈ n.tokenPaths) :
    key :: path ∈ memberTokenPaths members := by
  induction members with
  | nil => simp at hGet
  | cons e rest ih =>
    obtain ⟨k, m⟩ := e
    rw [Keyed.get?_cons] at hGet
    simp only [memberTokenPaths, List.mem_append, List.mem_map]
    split at hGet
    · rename_i hKey
      cases hGet
      exact .inl ⟨path, hPath, by rw [hKey]⟩
    · exact .inr (ih hGet)

theorem mem_tokenPaths_of_at? {n : Node} {path : List String} {t : Token}
    (h : n.at? path = some (.token t)) : path ∈ n.tokenPaths := by
  induction path generalizing n with
  | nil =>
    simp only [at?, Option.some.injEq] at h
    subst h
    simp [tokenPaths]
  | cons key rest ih =>
    cases n with
    | token s => simp [at?] at h
    | metadata v => simp [at?] at h
    | group members =>
      simp only [at?, Option.bind_eq_some_iff] at h
      obtain ⟨m, hGet, hAt⟩ := h
      exact mem_memberTokenPaths hGet (ih hAt)

end Node

end Tree

/-- A tree of tokens. -/
structure Tree where
  members : Keyed Tree.Node
  ordered : (Tree.Node.group members).Ordered
  deriving DecidableEq

namespace Tree

@[ext] theorem ext {s t : Tree} (h : s.members = t.members) : s = t := by
  cases s
  cases t
  cases h
  rfl

/-- The tree without members. -/
def empty : Tree :=
  ⟨[], Keyed.ordered_nil, trivial⟩

instance : Inhabited Tree := ⟨empty⟩

/-- The tree as a node. -/
def asNode (t : Tree) : Node :=
  .group t.members

/-- Whether a key is reserved for metadata; nothing under it counts as a token. -/
def isReserved (key : String) : Bool :=
  key.toList.head? == some '$'

/-- The node at a dotted path. -/
def node? (t : Tree) (path : String) : Option Node :=
  t.asNode.at? (Text.cut '.' path)

/-- The token at a dotted path. -/
def token? (t : Tree) (path : String) : Option Token :=
  (t.node? path).bind Node.asToken?

/-- The members of the group at a dotted path. -/
def group? (t : Tree) (path : String) : Option (Keyed Node) :=
  (t.node? path).bind Node.asGroup?

/-- The text of the token at a dotted path, empty if there is none. Aliases are not followed. -/
def valueAt (t : Tree) (path : String) : String :=
  ((t.token? path).map Token.value).getD ""

/-- The dotted paths of all tokens, those under reserved keys included. -/
def addresses (t : Tree) : List String :=
  t.asNode.tokenPaths.map (Text.glue '.')

theorem mem_addresses_of_token? {t : Tree} {path : String} {token : Token}
    (h : t.token? path = some token) : path ∈ t.addresses := by
  obtain ⟨n, hNode, hToken⟩ := Option.bind_eq_some_iff.1 h
  cases n with
  | group _ => simp [Node.asToken?] at hToken
  | metadata _ => simp [Node.asToken?] at hToken
  | token s => exact List.mem_map.2 ⟨_, Node.mem_tokenPaths_of_at? hNode, Text.glue_cut '.' path⟩

/-! ### Listing tokens -/

/-- A key below a path, with a separator unless the path is empty. -/
def extend (sep : Char) (path key : String) : String :=
  if path = "" then key else path ++ String.singleton sep ++ key

namespace Node

mutual

/-- The tokens of a node at a path, depth first in key order. -/
def leaves (path : String) : Node → List (String × Token)
  | .token t => [(path, t)]
  | .group members => memberLeaves path members
  | .metadata _ => []

/-- The tokens of the members of a group at a path; reserved keys are left out. -/
def memberLeaves (path : String) : List (String × Node) → List (String × Token)
  | [] => []
  | (key, n) :: rest =>
    (if isReserved key then [] else leaves (extend '.' path key) n) ++ memberLeaves path rest

end

end Node

/-- All tokens with their dotted paths, depth first in key order. -/
def tokens (t : Tree) : List (String × Token) :=
  t.asNode.leaves ""

/-- The texts of the tokens directly in the group at a dotted path. -/
def scale (t : Tree) (path : String) : Keyed String :=
  ((t.group? path).getD []).filterMap fun (key, n) =>
    if isReserved key then none else n.asToken?.map fun token => (key, token.value)

end Tree

end DesignSystem
