import DesignSystem.Tree.Basic
/-!
# Editing trees

An edit sets the text of the token at a path. It lands completely, with the groups on the way
created where they are missing, or it is refused and leaves no trace. Merging replaces whole
members of the root.
-/

namespace DesignSystem.Tree

namespace Node

/-- The order of a group is kept when one member is set to an ordered node. -/
theorem Ordered.set {members : Keyed Node} (h : (Node.group members).Ordered) (key : String)
    {n : Node} (hn : n.Ordered) : (Node.group (Keyed.set members key n)).Ordered := by
  refine ⟨h.1.set key n, membersOrdered_iff.2 fun e he => ?_⟩
  rcases Keyed.mem_set he with he | he
  · exact he ▸ hn
  · exact membersOrdered_iff.1 h.2 e he

theorem Ordered.get? {members : Keyed Node} (h : MembersOrdered members) {key : String} {n : Node}
    (hGet : Keyed.get? members key = some n) : n.Ordered := by
  induction members with
  | nil => simp at hGet
  | cons e rest ih =>
    obtain ⟨k, m⟩ := e
    rw [Keyed.get?_cons] at hGet
    split at hGet
    · cases hGet
      exact h.1
    · exact ih h.2 hGet

/-- Sets the text of the token at `path` below a group. The edit is refused where a token or
metadata stands on the way, and where a group with members or metadata stands at the end. A token
that is already there keeps its kind and description; a new one gets the kind inferred from `full`,
the path from the root. -/
def write (full : List String) (value : String) : List String → Keyed Node → Option (Keyed Node)
  | [], _ => none
  | [key], members => match Keyed.get? members key with
    | some (.token t) => some (Keyed.set members key (.token { t with value }))
    | some (.group (_ :: _)) | some (.metadata _) => none
    | some (.group []) | none =>
      some (Keyed.set members key (.token ⟨value, Token.Kind.infer full, none⟩))
  | key :: next :: rest, members => match Keyed.get? members key with
    | some (.group inner) =>
      (write full value (next :: rest) inner).map fun inner => Keyed.set members key (.group inner)
    | some (.token _) | some (.metadata _) => none
    | none =>
      (write full value (next :: rest) []).map fun inner => Keyed.set members key (.group inner)

theorem Ordered.write {full path : List String} {value : String} {members result : Keyed Node}
    (h : (Node.group members).Ordered) (hWrite : write full value path members = some result) :
    (Node.group result).Ordered := by
  fun_induction Node.write full value path members generalizing result with
  | case1 => cases hWrite
  | case2 => cases hWrite; exact h.set _ trivial
  | case3 => cases hWrite
  | case4 => cases hWrite
  | case5 => cases hWrite; exact h.set _ trivial
  | case6 => cases hWrite; exact h.set _ trivial
  | case7 members key next rest inner hGet ih =>
    obtain ⟨inner', hInner, rfl⟩ := Option.map_eq_some_iff.1 hWrite
    exact h.set _ (ih (Ordered.get? h.2 hGet) hInner)
  | case8 => cases hWrite
  | case9 => cases hWrite
  | case10 members key next rest hGet ih =>
    obtain ⟨inner', hInner, rfl⟩ := Option.map_eq_some_iff.1 hWrite
    exact h.set _ (ih ⟨Keyed.ordered_nil, trivial⟩ hInner)

end Node

/-- The tree with the text of the token at a dotted path set, or nothing if the edit is refused. A
path with an empty segment is refused. -/
def set? (t : Tree) (path value : String) : Option Tree :=
  let segments := Text.cut '.' path
  if "" ∈ segments then none
  else match h : Node.write segments value segments t.members with
    | some members => some ⟨members, t.ordered.write h⟩
    | none => none

/-- The tree with the text of the token at a dotted path set, or the tree as it is if the edit is
refused. -/
def set (t : Tree) (path value : String) : Tree :=
  (t.set? path value).getD t

/-- Merging keeps the order. -/
theorem Node.Ordered.setAll {members more : Keyed Node} (h : (Node.group members).Ordered)
    (hMore : ∀ e ∈ more, e.2.Ordered) : (Node.group (Keyed.setAll members more)).Ordered := by
  induction more generalizing members with
  | nil => exact h
  | cons e rest ih =>
    exact ih (h.set e.1 (hMore e List.mem_cons_self)) fun e he =>
      hMore e (List.mem_cons_of_mem _ he)

/-- The tree in which every member of the patch replaces the member of the same name; the others
are kept. -/
def merge (t patch : Tree) : Tree :=
  ⟨Keyed.setAll t.members patch.members,
    t.ordered.setAll (Node.membersOrdered_iff.1 patch.ordered.2)⟩

end DesignSystem.Tree
