import DesignSystem.Style
import DesignSystem.Tree.Edit
import DesignSystem.Proofs.Keyed
import DesignSystem.Proofs.Text.Cut
/-!
# Tokens by the keys that lead to them

A tree shows its tokens in three ways: `Tree.at?` looks one up by its keys, `Tree.tokens` lists them
under dotted paths and `Tree.flatten` names style variables after them. This file gives all three
one source. `Node.listing` lists the tokens with their keys, outside reserved ones, and

    n.leaves path            = n.listing with the keys put behind `path`, dots between
    memberVariables path ms  = memberListing ms with the variables of the keys behind `path`

while `mem_listing_iff` says that the listing holds what looking up finds.

The name of a variable (`stem`) is nearly the keys with dashes between them. It differs in two
places: a scale's representative takes the name of the scale, and an empty key in front leaves no
dash. `stem_eq_extend` covers the rest, and `length_stem_le` tells the second place apart.
-/

namespace DesignSystem

namespace Tree

theorem extend_empty (sep : Char) (key : String) : extend sep "" key = key :=
  if_pos rfl

theorem extend_of_ne {path : String} (h : path ≠ "") (sep : Char) (key : String) :
    extend sep path key = path ++ String.singleton sep ++ key :=
  if_neg h

theorem extend_ne_empty {path : String} (h : path ≠ "") (sep : Char) (key : String) :
    extend sep path key ≠ "" := by
  rw [extend_of_ne h]
  intro hEmpty
  have hLength := congrArg String.length hEmpty
  simp only [String.length_append, String.length_singleton, String.length_empty] at hLength
  omega

namespace Node

/-! ### The listing -/

mutual

/-- The tokens of a node with the keys that lead to them, depth first in key order. -/
def listing : Node → List (List String × Token)
  | .token t => [([], t)]
  | .group members => memberListing members
  | .metadata _ => []

/-- The tokens of the members of a group with their keys; reserved keys are left out. -/
def memberListing : List (String × Node) → List (List String × Token)
  | [] => []
  | (key, n) :: rest =>
    (if isReserved key then [] else n.listing.map fun e => (key :: e.1, e.2)) ++ memberListing rest

end

theorem mem_memberListing_iff {members : List (String × Node)} {path : List String} {t : Token} :
    (path, t) ∈ memberListing members ↔
      ∃ key n rest, (key, n) ∈ members ∧ isReserved key = false ∧ path = key :: rest ∧
        (rest, t) ∈ n.listing := by
  induction members with
  | nil => simp [memberListing]
  | cons e others ih =>
    obtain ⟨k, m⟩ := e
    rw [memberListing, List.mem_append, ih]
    constructor
    · rintro (hHere | ⟨key, n, rest, hMem, h⟩)
      · split at hHere
        · cases hHere
        · rename_i hKey
          obtain ⟨⟨rest, t'⟩, hListed, hEq⟩ := List.mem_map.mp hHere
          cases hEq
          exact ⟨k, m, rest, List.mem_cons_self, Bool.eq_false_iff.mpr hKey, rfl, hListed⟩
      · exact ⟨key, n, rest, List.mem_cons_of_mem _ hMem, h⟩
    · rintro ⟨key, n, rest, hMem, hKey, rfl, hListed⟩
      rcases List.mem_cons.mp hMem with hMem | hMem
      · cases hMem
        rw [hKey]
        exact .inl (List.mem_map.mpr ⟨_, hListed, rfl⟩)
      · exact .inr ⟨key, n, rest, hMem, hKey, rfl, hListed⟩

theorem ne_nil_of_mem_memberListing {members : List (String × Node)} {path : List String}
    {t : Token} (h : (path, t) ∈ memberListing members) : path ≠ [] := by
  obtain ⟨key, n, rest, -, -, rfl, -⟩ := mem_memberListing_iff.mp h
  exact List.cons_ne_nil _ _

/-- **The listing holds what looking up finds**, outside reserved keys. -/
theorem mem_listing_iff {n : Node} (hOrdered : n.Ordered) {path : List String} {t : Token} :
    (path, t) ∈ n.listing ↔
      n.at? path = some (.token t) ∧ ∀ key ∈ path, isReserved key = false := by
  induction path generalizing n with
  | nil =>
    cases n with
    | token s =>
      simp only [listing, at?, List.mem_singleton, Prod.mk.injEq, Option.some.injEq,
        Node.token.injEq, List.not_mem_nil, true_and, false_implies, implies_true, and_true]
      exact eq_comm
    | metadata v => simp [listing, at?]
    | group members =>
      refine ⟨fun h => absurd rfl (ne_nil_of_mem_memberListing h), ?_⟩
      rintro ⟨h, -⟩
      simp [at?] at h
  | cons key rest ih =>
    cases n with
    | token s => simp [listing, at?]
    | metadata v => simp [listing, at?]
    | group members =>
      rw [listing, mem_memberListing_iff, at?, List.forall_mem_cons]
      constructor
      · rintro ⟨k, m, r, hMem, hKey, hPath, hListed⟩
        cases hPath
        obtain ⟨hAt, hRest⟩ :=
          (ih (membersOrdered_iff.mp hOrdered.2 _ hMem)).mp hListed
        rw [Keyed.get?_of_mem hOrdered.1 hMem]
        exact ⟨hAt, hKey, hRest⟩
      · rintro ⟨hAt, hKey, hRest⟩
        obtain ⟨m, hGet, hAt⟩ := Option.bind_eq_some_iff.mp hAt
        have hListed := (ih (Ordered.get? hOrdered.2 hGet)).mpr ⟨hAt, hRest⟩
        exact ⟨key, m, rest, Keyed.mem_of_get? hGet, hKey, rfl, hListed⟩

/-! ### Dotted paths -/

mutual

/-- The dotted paths are those of the listing. -/
theorem leaves_eq (path : String) :
    (n : Node) → n.leaves path = n.listing.map fun e => (e.1.foldl (extend '.') path, e.2)
  | .token _ => rfl
  | .group members => by
    rw [leaves, listing]
    exact memberLeaves_eq path members
  | .metadata _ => rfl

theorem memberLeaves_eq (path : String) :
    (members : List (String × Node)) → memberLeaves path members =
      (memberListing members).map fun e => (e.1.foldl (extend '.') path, e.2)
  | [] => rfl
  | (key, n) :: rest => by
    rw [memberLeaves, memberListing, List.map_append, memberLeaves_eq path rest]
    congr 1
    split
    · rfl
    · rw [leaves_eq (extend '.' path key) n, List.map_map]
      rfl

end

end Node

/-- The token under the given keys. -/
def tokenAt? (t : Tree) (keys : List String) : Option Token :=
  (t.asNode.at? keys).bind Node.asToken?

theorem token?_eq (t : Tree) (path : String) : t.token? path = t.tokenAt? (Text.cut '.' path) := rfl

theorem tokenAt?_eq_some_iff {t : Tree} {keys : List String} {token : Token} :
    t.tokenAt? keys = some token ↔ t.asNode.at? keys = some (.token token) := by
  rw [tokenAt?, Option.bind_eq_some_iff]
  constructor
  · rintro ⟨n, hAt, hToken⟩
    cases n with
    | token s => exact hAt.trans (congrArg (some ∘ Node.token) (Option.some.inj hToken))
    | group members => cases hToken
    | metadata v => cases hToken
  · intro hAt
    exact ⟨_, hAt, rfl⟩

/-- **The listing of a tree holds the tokens under its keys**, outside reserved ones. -/
theorem mem_listing_iff {t : Tree} {keys : List String} {token : Token} :
    (keys, token) ∈ t.asNode.listing ↔
      t.tokenAt? keys = some token ∧ ∀ key ∈ keys, isReserved key = false := by
  rw [tokenAt?_eq_some_iff, asNode, Node.mem_listing_iff t.ordered]

theorem foldl_extend {path : String} (hPath : path ≠ "") {keys : List String} (hKeys : keys ≠ [])
    (sep : Char) : keys.foldl (extend sep) path = path ++ String.singleton sep ++ Text.glue sep keys
    := by
  induction keys generalizing path with
  | nil => exact absurd rfl hKeys
  | cons key rest ih =>
    rw [List.foldl_cons]
    cases rest with
    | nil => rw [List.foldl_nil, extend_of_ne hPath, Text.glue_singleton]
    | cons next rest =>
      have hNext : next :: rest ≠ [] := List.cons_ne_nil _ _
      rw [ih (extend_ne_empty hPath sep key) hNext, extend_of_ne hPath, Text.glue_cons hNext]
      simp only [String.append_assoc]

/-- A dotted path is the keys with dots between them, unless the first key is empty. -/
theorem foldl_extend_empty {keys : List String} (hNe : keys ≠ []) (hHead : keys.head? ≠ some "")
    (sep : Char) : keys.foldl (extend sep) "" = Text.glue sep keys := by
  cases keys with
  | nil => exact absurd rfl hNe
  | cons key rest =>
    have hKey : key ≠ "" := by
      intro h
      exact hHead (congrArg some h)
    rw [List.foldl_cons, extend_empty]
    cases rest with
    | nil => rw [List.foldl_nil, Text.glue_singleton]
    | cons next rest =>
      rw [foldl_extend hKey (List.cons_ne_nil _ _), Text.glue_cons (List.cons_ne_nil _ _)]

/-- **A listed token is found under its dotted path** if none of its keys holds a dot and the first
one is not empty. -/
theorem token?_of_listed {t : Tree} {keys : List String} {token : Token}
    (h : (keys, token) ∈ t.asNode.listing) (hHead : keys.head? ≠ some "")
    (hDots : ∀ k ∈ keys, '.' ∉ k.toList) :
    t.token? (keys.foldl (extend '.') "") = some token := by
  have hNe : keys ≠ [] := Node.ne_nil_of_mem_memberListing h
  rw [foldl_extend_empty hNe hHead, token?_eq, Text.cut_glue hNe hDots]
  exact (mem_listing_iff.mp h).1

/-- A token that is found is listed under the keys of its path, if none of them is reserved. -/
theorem listed_of_token? {t : Tree} {path : String} {token : Token}
    (h : t.token? path = some token)
    (hKeys : ∀ key ∈ Text.cut '.' path, isReserved key = false) :
    (Text.cut '.' path, token) ∈ t.asNode.listing :=
  mem_listing_iff.mpr ⟨h, hKeys⟩

/-! ### Names of variables -/

/-- The name that the token under the given keys gives its variable, without the common prefix;
`path` is the name of the group around it. -/
def stem (path : String) : List String → String
  | [] => path
  | [key] => variableStem path key
  | key :: next :: rest => stem (extend '-' path key) (next :: rest)

/-- The variable of the token under the given keys. -/
def variableOf (keys : List String) : String :=
  variablePrefix ++ stem "" keys

theorem stem_cons {keys : List String} (h : keys ≠ []) (path key : String) :
    stem path (key :: keys) = stem (extend '-' path key) keys := by
  cases keys with
  | nil => exact absurd rfl h
  | cons next rest => rw [stem]

namespace Node

mutual

/-- The variables of a node under a key are those of its listing. -/
theorem nodeVariables_eq (path key : String) : (n : Node) → nodeVariables path key n =
      n.listing.map fun e => (variablePrefix ++ stem path (key :: e.1), e.2.style)
  | .token _ => rfl
  | .group members => by
    rw [nodeVariables, listing, memberVariables_eq]
    refine List.map_congr_left fun e he => ?_
    rw [stem_cons (ne_nil_of_mem_memberListing he)]
  | .metadata _ => rfl

theorem memberVariables_eq (path : String) :
    (members : List (String × Node)) → memberVariables path members =
      (memberListing members).map fun e => (variablePrefix ++ stem path e.1, e.2.style)
  | [] => rfl
  | (key, n) :: rest => by
    rw [memberVariables, memberListing, List.map_append, memberVariables_eq path rest]
    congr 1
    split
    · rfl
    · rw [nodeVariables_eq path key n, List.map_map]
      rfl

end

end Node

/-- **The variables of a tree are those of its listed tokens.** -/
theorem has_flatten_iff {t : Tree} {name : String} :
    Keyed.has t.flatten name = true ↔ ∃ e ∈ t.asNode.listing, variableOf e.1 = name := by
  rw [flatten, Keyed.has_ofList, Node.memberVariables_eq]
  constructor
  · rintro ⟨v, hv, rfl⟩
    obtain ⟨e, he, rfl⟩ := List.mem_map.mp hv
    exact ⟨e, he, rfl⟩
  · rintro ⟨e, he, rfl⟩
    exact ⟨_, List.mem_map.mpr ⟨e, he, rfl⟩, rfl⟩

/-- A name goes on behind the group's name, unless both this and the next key are empty. -/
theorem extend_ne_empty_of_front {path key : String} {rest : List String} {sep : Char}
    (h : path ≠ "" ∨ (key :: rest).head? ≠ some "") : extend sep path key ≠ "" := by
  by_cases hPath : path = ""
  · rw [hPath, extend_empty]
    intro hKey
    exact h.elim (fun h => h hPath) fun hHead => hHead (congrArg some hKey)
  · exact extend_ne_empty hPath sep key

theorem extend_extend_glue {path key : String} {rest keys : List String} {sep : Char}
    (hRest : rest ≠ []) (h : path ≠ "" ∨ (key :: keys).head? ≠ some "") :
    extend sep (extend sep path key) (Text.glue sep rest) =
      extend sep path (Text.glue sep (key :: rest)) := by
  rw [extend_of_ne (extend_ne_empty_of_front h), Text.glue_cons hRest]
  by_cases hPath : path = ""
  · rw [hPath, extend_empty, extend_empty]
  · rw [extend_of_ne hPath, extend_of_ne hPath]
    simp only [String.append_assoc]

/-- The name is the keys with dashes between them, behind the group's name, except for a scale's
representative and where an empty key stands in front. -/
theorem stem_eq_extend {path : String} {keys : List String} (hNe : keys ≠ [])
    (hFront : path ≠ "" ∨ keys.head? ≠ some "") (hLast : keys.getLast? ≠ some defaultKey) :
    stem path keys = extend '-' path (Text.glue '-' keys) := by
  induction keys generalizing path with
  | nil => exact absurd rfl hNe
  | cons key rest ih =>
    cases rest with
    | nil =>
      have hKey : key ≠ defaultKey := by
        intro h
        exact hLast (congrArg some h)
      rw [stem, variableStem, if_neg fun h => hKey h.1, Text.glue_singleton]
    | cons next rest =>
      have hNext : next :: rest ≠ [] := List.cons_ne_nil _ _
      rw [List.getLast?_cons_cons] at hLast
      rw [stem, ih hNext (.inl (extend_ne_empty_of_front hFront)) hLast,
        extend_extend_glue hNext hFront]

/-- No name is longer than the keys with dashes between them. -/
theorem length_stem_le {keys : List String} (hNe : keys ≠ []) (path : String) :
    (stem path keys).length ≤ (extend '-' path (Text.glue '-' keys)).length := by
  induction keys generalizing path with
  | nil => exact absurd rfl hNe
  | cons key rest ih =>
    cases rest with
    | nil =>
      rw [stem, variableStem, Text.glue_singleton]
      split
      · rename_i hDefault
        rw [extend_of_ne hDefault.2]
        simp only [String.length_append]
        omega
      · exact Nat.le_refl _
    | cons next rest =>
      have hNext : next :: rest ≠ [] := List.cons_ne_nil _ _
      rw [stem, Text.glue_cons hNext]
      refine Nat.le_trans (ih hNext _) ?_
      by_cases hPath : path = ""
      · subst hPath
        rw [extend_empty, extend_empty]
        by_cases hKey : key = ""
        · rw [hKey, extend_empty]
          simp only [String.length_append]
          omega
        · exact Nat.le_of_eq (by rw [extend_of_ne hKey])
      · rw [extend_of_ne (extend_ne_empty hPath '-' key), extend_of_ne hPath, extend_of_ne hPath]
        simp only [String.append_assoc]
        exact Nat.le_refl _

/-- An empty key in front leaves no dash in the name. -/
theorem stem_ne_glue {rest : List String} (h : rest ≠ []) :
    stem "" ("" :: rest) ≠ Text.glue '-' ("" :: rest) := by
  intro hEq
  have hShort := length_stem_le h ""
  rw [stem_cons h, extend_empty, Text.glue_cons h] at hEq
  rw [extend_empty] at hShort
  have hLength := congrArg String.length hEq
  simp only [String.length_append, String.length_singleton, String.length_empty] at hLength
  omega

end Tree

end DesignSystem
