import DesignSystem.Proofs.Tree.Indirection
/-!
# Tokens that share a variable

Flattening keeps one value under each name, and so a token can lose its variable to another that
has the same name. `own_variables_iff` says when this happens: a name is the token's `nameKeys` with
dashes between them, and a tree keeps all its tokens exactly if no two of them are spelled alike.

Two things can make them so. A key that holds a dash looks like two keys, and empty keys in front
leave no dash, since a name is taken to begin at the root as long as it is empty. Where neither
occurs, every token has a variable of its own.
-/

namespace DesignSystem.Tree

/-! ### The order of the listing -/

namespace Node

mutual

/-- **Tokens are listed in the lexicographic order of their keys.** -/
theorem sorted_listing : (n : Node) → n.Ordered → n.listing.Pairwise fun e d => e.1 < d.1
  | .token _, _ => List.pairwise_singleton ..
  | .group members, h => sorted_memberListing members h.1 h.2
  | .metadata _, _ => List.Pairwise.nil

theorem sorted_memberListing : (members : List (String × Node)) → Keyed.Ordered members →
    MembersOrdered members → (memberListing members).Pairwise fun e d => e.1 < d.1
  | [], _, _ => List.Pairwise.nil
  | (key, n) :: rest, h, hMembers => by
    obtain ⟨hHead, hRest⟩ := List.pairwise_cons.mp h
    rw [memberListing, List.pairwise_append]
    refine ⟨?_, sorted_memberListing rest hRest hMembers.2, ?_⟩
    · split
      · exact List.Pairwise.nil
      · refine List.pairwise_map.mpr ((sorted_listing n hMembers.1).imp fun hLess => ?_)
        exact List.cons_lt_cons_iff.mpr (.inr ⟨rfl, hLess⟩)
    -- Below this member all keys begin with its own, below the others with greater ones.
    · intro e he d hd
      split at he
      · cases he
      · obtain ⟨e', -, rfl⟩ := List.mem_map.mp he
        obtain ⟨key', n', below, hMem, -, hKeys, -⟩ := mem_memberListing_iff.mp hd
        rw [hKeys]
        exact List.cons_lt_cons_iff.mpr (.inl (hHead _ hMem))

end

/-- No two tokens are listed under the same keys. -/
theorem nodup_listing (n : Node) (h : n.Ordered) : (n.listing.map Prod.fst).Nodup :=
  List.pairwise_map.mpr ((sorted_listing n h).imp fun hLess => Std.ne_of_lt hLess)

end Node

/-! ### How names are spelled -/

/-- The keys that a token's name is spelled from: empty keys in front are left out, and so is a
representative's own key below the root. -/
def nameKeys (keys : List String) : List String :=
  collapse (keys.dropWhile (· == ""))

theorem nameKeys_of_front {keys : List String} (h : keys.head? ≠ some "") :
    nameKeys keys = collapse keys := by
  cases keys with
  | nil => rfl
  | cons key rest =>
    have hKey : ¬(key == "") = true := fun hEmpty => h (congrArg some (eq_of_beq hEmpty))
    rw [nameKeys, List.dropWhile_cons, if_neg hKey]

/-- **A variable is named by the name keys with dashes between them.** -/
theorem variableOf_eq_glue {keys : List String} (hNe : keys ≠ []) :
    variableOf keys = variablePrefix ++ Text.glue '-' (nameKeys keys) := by
  induction keys with
  | nil => exact absurd rfl hNe
  | cons key rest ih =>
    by_cases hKey : key = ""
    · subst hKey
      cases rest with
      | nil => rfl
      | cons next rest =>
        have hNext : next :: rest ≠ [] := List.cons_ne_nil _ _
        rw [variableOf, stem_cons hNext, extend_empty]
        exact ih hNext
    · have hHead : (key :: rest).head? ≠ some "" := fun hEmpty => hKey (Option.some.inj hEmpty)
      rw [nameKeys_of_front hHead]
      exact variableOf_of_front (List.cons_ne_nil _ _) hHead

/-! ### Variables of one's own -/

/-- No token loses its variable: there are as many variables as tokens, and under the name of each
token stands its value, a literal as it is and an alias as a reference. -/
def HasOwnVariables (t : Tree) : Prop :=
  t.flatten.length = t.tokens.length ∧ ∀ keys token, (keys, token) ∈ t.asNode.listing →
    Keyed.get? t.flatten (variableOf keys) = some token.style

/-- No two tokens have names that are spelled alike. -/
def SpelledApart (t : Tree) : Prop :=
  (t.asNode.listing.map fun e => Text.glue '-' (nameKeys e.1)).Nodup

theorem length_tokens (t : Tree) : t.tokens.length = t.asNode.listing.length := by
  rw [tokens, Node.leaves_eq, List.length_map]

theorem flatten_eq (t : Tree) : t.flatten =
    Keyed.ofList (t.asNode.listing.map fun e => (variableOf e.1, e.2.style)) := by
  rw [flatten, Node.memberVariables_eq]
  rfl

/-- Names are spelled apart exactly if they are different. -/
theorem spelledApart_iff {t : Tree} :
    t.SpelledApart ↔ (t.asNode.listing.map fun e => variableOf e.1).Nodup := by
  have hNames : (t.asNode.listing.map fun e => variableOf e.1) =
      (t.asNode.listing.map fun e => Text.glue '-' (nameKeys e.1)).map (variablePrefix ++ ·) := by
    rw [List.map_map]
    exact List.map_congr_left fun e he => variableOf_eq_glue (Node.ne_nil_of_mem_memberListing he)
  rw [hNames, List.nodup_map_iff fun _ _ => (String.append_right_inj _).mp]
  rfl

/-- No variable is lost exactly if all names are different. -/
theorem length_flatten_iff {t : Tree} :
    t.flatten.length = t.tokens.length ↔ t.SpelledApart := by
  have hLength : t.tokens.length =
      (t.asNode.listing.map fun e => (variableOf e.1, e.2.style)).length := by
    rw [length_tokens, List.length_map]
  rw [hLength, flatten_eq, Keyed.length_ofList_eq_iff, List.map_map, spelledApart_iff]
  rfl

/-- **Of the tokens with one name the last shows.** -/
theorem get?_flatten_last (t : Tree) (name : String) : Keyed.get? t.flatten name =
    (t.asNode.listing.reverse.find? fun e => variableOf e.1 == name).map fun e => e.2.style := by
  rw [flatten_eq, Keyed.get?_ofList, ← List.map_reverse]
  induction t.asNode.listing.reverse with
  | nil => rfl
  | cons e rest ih =>
    rw [List.map_cons, Keyed.get?_cons, List.find?_cons]
    split
    · rename_i hName
      rw [beq_iff_eq.mpr hName]
      rfl
    · rename_i hName
      rw [beq_false_of_ne hName, ih]

/-- A token whose name no other has shows in its variable. -/
theorem get?_flatten_of_spelledApart {t : Tree} (h : t.SpelledApart) {keys : List String}
    {token : Token} (hListed : (keys, token) ∈ t.asNode.listing) :
    Keyed.get? t.flatten (variableOf keys) = some token.style := by
  rw [flatten_eq]
  refine Keyed.get?_ofList_of_agree (List.mem_map.mpr ⟨_, hListed, rfl⟩) fun e he hName => ?_
  obtain ⟨e', he', rfl⟩ := List.mem_map.mp he
  rw [List.inj_on_of_nodup_map (spelledApart_iff.mp h) he' hListed hName]

/-! ### Where no names are spelled alike -/

/-- Without a group under the empty key only a token at the root can have an empty key in front. -/
theorem head?_ne_of_listed {t : Tree}
    (hRoot : ∀ members, Keyed.get? t.members "" ≠ some (.group members)) {keys : List String}
    {token : Token} (h : (keys, token) ∈ t.asNode.listing) :
    keys.head? ≠ some "" ∨ keys = [""] := by
  obtain ⟨hAt, -⟩ := (Node.mem_listing_iff t.ordered).mp h
  cases keys with
  | nil => exact .inl nofun
  | cons key rest =>
    by_cases hKey : key = ""
    · subst hKey
      obtain ⟨n, hGet, hBelow⟩ := Option.bind_eq_some_iff.mp hAt
      cases rest with
      | nil => exact .inr rfl
      | cons next rest =>
        cases n with
        | token s => cases hBelow
        | metadata v => cases hBelow
        | group members => exact absurd hGet (hRoot members)
    · exact .inl fun hHead => hKey (Option.some.inj hHead)

/-- **Where no key holds a dash and no group stands under the empty key, names differ.** -/
theorem spelledApart_of_keys {t : Tree} (hDashes : ∀ key ∈ t.asNode.keys, '-' ∉ key.toList)
    (hRoot : ∀ members, Keyed.get? t.members "" ≠ some (.group members)) : t.SpelledApart := by
  have hSpelled : ∀ e ∈ t.asNode.listing,
      Text.glue '-' (nameKeys e.1) = Text.glue '-' (collapse e.1) := by
    rintro ⟨keys, token⟩ he
    rcases head?_ne_of_listed hRoot he with hHead | hKeys
    · rw [nameKeys_of_front hHead]
    · cases hKeys
      rfl
  rw [SpelledApart, List.map_congr_left hSpelled]
  refine List.Nodup.map_on ?_ (Node.nodup_listing _ t.ordered).of_map
  rintro ⟨keys, token⟩ he ⟨keys', token'⟩ he' hGlue
  have hMem := Node.mem_keys_of_at? ((Node.mem_listing_iff t.ordered).mp he).1
  have hMem' := Node.mem_keys_of_at? ((Node.mem_listing_iff t.ordered).mp he').1
  have hCollapse := Text.glue_injective
    (collapse_ne_nil (Node.ne_nil_of_mem_memberListing he))
    (collapse_ne_nil (Node.ne_nil_of_mem_memberListing he'))
    (fun key hKey => hDashes key (hMem key (mem_of_mem_collapse hKey)))
    (fun key hKey => hDashes key (hMem' key (mem_of_mem_collapse hKey))) hGlue
  have hKeys := collapse_injective t.ordered he he' hCollapse
  exact List.inj_on_of_nodup_map (Node.nodup_listing _ t.ordered) he he' hKeys

/-! ### The statement -/

/-- **When every token has a variable of its own.** A tree loses no token exactly if no two of its
tokens have names that are spelled alike; of those that have, the last one shows. In particular no
token is lost where no key holds a dash and no group stands under the empty key. -/
theorem own_variables_iff (t : Tree) :
    (t.HasOwnVariables ↔ t.SpelledApart) ∧
      (∀ name, Keyed.get? t.flatten name =
        (t.asNode.listing.reverse.find? fun e => variableOf e.1 == name).map fun e => e.2.style) ∧
      ((∀ key ∈ t.asNode.keys, '-' ∉ key.toList) →
        (∀ members, Keyed.get? t.members "" ≠ some (.group members)) → t.HasOwnVariables) := by
  have hIff : t.HasOwnVariables ↔ t.SpelledApart := by
    constructor
    · intro hOwn
      exact length_flatten_iff.mp hOwn.1
    · intro hApart
      exact ⟨length_flatten_iff.mpr hApart, fun _ _ => get?_flatten_of_spelledApart hApart⟩
  exact ⟨hIff, get?_flatten_last t, fun hDashes hRoot =>
    hIff.mpr (spelledApart_of_keys hDashes hRoot)⟩

/-- The built-in tree keeps all its tokens. -/
theorem light_has_own_variables : light.HasOwnVariables := by
  refine (own_variables_iff light).2.2 (by decide +kernel) fun members hGet => ?_
  have hNone : Keyed.get? light.members "" = none := by decide +kernel
  rw [hNone] at hGet
  cases hGet

/-- Two tokens, of which one stands under an empty key in front. -/
def crowded : Tree :=
  ofBranches [("", Branch.group [("x", Branch.leaf .dimension "1")]),
    ("x", Branch.leaf .dimension "2")]

/-- A tree may have fewer variables than tokens. -/
theorem crowded_loses_variable : ¬ ∀ t : Tree, t.HasOwnVariables := by
  intro hAll
  have hFewer : crowded.flatten.length ≠ crowded.tokens.length := by decide +kernel
  exact hFewer (hAll crowded).1

end DesignSystem.Tree
