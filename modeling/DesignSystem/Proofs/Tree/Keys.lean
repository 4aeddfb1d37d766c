import DesignSystem.Dark
import DesignSystem.Proofs.Tree.Editing
import DesignSystem.Proofs.Tree.Listing
/-!
# The keys of edited trees

A document may put any text as a key into a tree, also one that no path can name: the empty text,
or one with a dot. An edit cannot. It adds no key but those of its path (`keys_set`), which are the
pieces of a text between dots and of which none is empty. So a tree that only edits have made has
plain keys (`HasPlainKeys.setAll`), and for such trees listing and looking up agree on the paths: the
tokens are listed under the paths that name them (`HasPlainKeys.mem_tokens_iff`).
-/

namespace DesignSystem

namespace Tree

namespace Node

mutual

/-- The keys of all groups in a node. -/
def keys : Node → List String
  | .group members => memberKeys members
  | .token _ | .metadata _ => []

/-- The keys of the members of a group and of all groups in them. -/
def memberKeys : List (String × Node) → List String
  | [] => []
  | (key, n) :: rest => key :: (n.keys ++ memberKeys rest)

end

theorem mem_memberKeys_iff {members : List (String × Node)} {key : String} :
    key ∈ memberKeys members ↔ ∃ e ∈ members, key = e.1 ∨ key ∈ e.2.keys := by
  induction members with
  | nil => simp [memberKeys]
  | cons e rest ih => simp [memberKeys, ih, or_assoc]

/-- The keys on a path to a node are among the keys. -/
theorem mem_keys_of_at? {n m : Node} {path : List String} (h : n.at? path = some m) :
    ∀ key ∈ path, key ∈ n.keys := by
  induction path generalizing n with
  | nil => exact nofun
  | cons first rest ih =>
    cases n with
    | token t => cases h
    | metadata v => cases h
    | group members =>
      obtain ⟨inner, hGet, hAt⟩ := Option.bind_eq_some_iff.mp h
      have hMem := Keyed.mem_of_get? hGet
      intro key hKey
      rcases List.mem_cons.mp hKey with rfl | hKey
      · exact mem_memberKeys_iff.mpr ⟨_, hMem, .inl rfl⟩
      · exact mem_memberKeys_iff.mpr ⟨_, hMem, .inr (ih hAt key hKey)⟩

end Node

/-- An edit of a place adds no key but those of its path. -/
theorem Place.keys_edit? {full path : List String} {value : String} {place : Place} {n : Node}
    (h : edit? full value path place = some n) {key : String} (hKey : key ∈ n.keys) :
    key ∈ path ∨ ∃ old, place = some old ∧ key ∈ old.keys := by
  induction path generalizing place n with
  | nil => obtain ⟨t, rfl, rfl⟩ | ⟨-, rfl⟩ := edit?_nil_eq_some h <;> cases hKey
  | cons first rest ih =>
    obtain ⟨inner, m, hOpened, hEdit, rfl⟩ := edit?_cons_eq_some_iff.mp h
    have hInner : key ∈ Node.memberKeys inner → ∃ old, place = some old ∧ key ∈ old.keys := by
      intro hOld
      cases place with
      | none =>
        cases hOpened
        cases hOld
      | some old =>
        cases old with
        | token t => cases hOpened
        | metadata v => cases hOpened
        | group members =>
          cases hOpened
          exact ⟨_, rfl, hOld⟩
    obtain ⟨e, he, hKey⟩ := Node.mem_memberKeys_iff.mp hKey
    rcases Keyed.mem_set he with rfl | he
    · rcases hKey with rfl | hKey
      · exact .inl List.mem_cons_self
      · rcases ih hEdit hKey with hPath | ⟨old, hGet, hOld⟩
        · exact .inl (List.mem_cons_of_mem _ hPath)
        · exact .inr (hInner (Node.mem_memberKeys_iff.mpr
            ⟨_, Keyed.mem_of_get? hGet, .inr hOld⟩))
    · exact .inr (hInner (Node.mem_memberKeys_iff.mpr ⟨e, he, hKey⟩))

/-- **An edit adds no key but those of its path.** -/
theorem keys_set {t : Tree} {path value key : String} (hKey : key ∈ (t.set path value).asNode.keys) :
    key ∈ t.asNode.keys ∨ key ∈ Text.cut '.' path ∧ "" ∉ Text.cut '.' path := by
  by_cases hEmpty : "" ∈ Text.cut '.' path
  · rw [set_of_empty_key hEmpty] at hKey
    exact .inl hKey
  · have hNode := asNode_set (t := t) hEmpty value
    rw [Place.edit] at hNode
    cases hEdit : Place.edit? (Text.cut '.' path) value (Text.cut '.' path) (some t.asNode) with
    | none =>
      rw [hEdit, Option.none_or] at hNode
      exact .inl (Option.some.inj hNode ▸ hKey)
    | some n =>
      rw [hEdit, Option.some_or] at hNode
      rcases Place.keys_edit? hEdit (Option.some.inj hNode ▸ hKey) with hPath | ⟨old, hOld, hKey⟩
      · exact .inr ⟨hPath, hEmpty⟩
      · exact .inl (Option.some.inj hOld ▸ hKey)

/-- No key is empty or holds a dot, so that dotted paths name all nodes. -/
def HasPlainKeys (t : Tree) : Prop :=
  ∀ key ∈ t.asNode.keys, key ≠ "" ∧ '.' ∉ key.toList

instance (t : Tree) : Decidable t.HasPlainKeys :=
  inferInstanceAs (Decidable (∀ _ ∈ _, _))

theorem hasPlainKeys_empty : empty.HasPlainKeys := nofun

theorem hasPlainKeys_light : light.HasPlainKeys := by
  decide +kernel

theorem HasPlainKeys.set {t : Tree} (h : t.HasPlainKeys) (path value : String) :
    (t.set path value).HasPlainKeys := by
  intro key hKey
  rcases keys_set hKey with hOld | ⟨hPath, hEmpty⟩
  · exact h key hOld
  · exact ⟨fun hNil => hEmpty (hNil ▸ hPath), Text.not_mem_of_mem_cut hPath⟩

/-- **Edits keep the keys plain.** -/
theorem HasPlainKeys.setAll {t : Tree} (h : t.HasPlainKeys) (edits : List (String × String)) :
    (t.setAll edits).HasPlainKeys := by
  induction edits generalizing t with
  | nil => exact h
  | cons e rest ih => exact ih (h.set e.1 e.2)

/-! ### Listing and looking up -/

theorem listing_keys {t : Tree} {keys : List String} {token : Token}
    (h : (keys, token) ∈ t.asNode.listing) : ∀ key ∈ keys, key ∈ t.asNode.keys :=
  Node.mem_keys_of_at? ((Node.mem_listing_iff t.ordered).mp h).1

/-- The path of a listed token is its keys with dots between them, and the keys are its pieces. -/
theorem HasPlainKeys.path_of_listed {t : Tree} (h : t.HasPlainKeys) {keys : List String}
    {token : Token} (hListed : (keys, token) ∈ t.asNode.listing) :
    keys.foldl (extend '.') "" = Text.glue '.' keys ∧ Text.cut '.' (Text.glue '.' keys) = keys := by
  have hNe : keys ≠ [] := Node.ne_nil_of_mem_memberListing hListed
  refine ⟨foldl_extend_empty hNe (fun hHead => ?_) '.', Text.cut_glue hNe fun key hKey => ?_⟩
  · exact (h "" (listing_keys hListed _ (List.mem_of_mem_head? hHead))).1 rfl
  · exact (h key (listing_keys hListed key hKey)).2

/-- **Tokens are listed under the paths that name them**, if all keys are plain. -/
theorem HasPlainKeys.mem_tokens_iff {t : Tree} (h : t.HasPlainKeys) {path : String}
    {token : Token} : (path, token) ∈ t.tokens ↔
      (Text.cut '.' path, token) ∈ t.asNode.listing := by
  rw [tokens, Node.leaves_eq]
  constructor
  · intro hMem
    obtain ⟨⟨keys, token'⟩, hListed, hEq⟩ := List.mem_map.mp hMem
    cases hEq
    obtain ⟨hGlue, hCut⟩ := h.path_of_listed hListed
    rwa [hGlue, hCut]
  · intro hListed
    refine List.mem_map.mpr ⟨_, hListed, ?_⟩
    rw [(h.path_of_listed hListed).1, Text.glue_cut]

theorem keys_of_token? {t : Tree} {path : String} {token : Token}
    (h : t.token? path = some token) : ∀ key ∈ Text.cut '.' path, key ∈ t.asNode.keys := by
  obtain ⟨n, hAt, -⟩ := Option.bind_eq_some_iff.mp h
  exact Node.mem_keys_of_at? hAt

end Tree

end DesignSystem
