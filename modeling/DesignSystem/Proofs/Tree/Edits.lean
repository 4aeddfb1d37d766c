import DesignSystem.Dark
import DesignSystem.Proofs.Tree.Editing
/-!
# Edits one after the other

What a list of edits does to a tree, from what one edit does. Two readings of a tree are followed
through the list. The tokens, by the keys that lead to them: one that no edit aims at stays
(`tokenAt?_setAll_of_ne`), one that an edit aims at has its text (`token?_setAll`), and none gets
lost (`exists_tokenAt_setAll`). And the places of the root: what an edit leaves in a place depends on
nothing but what the place held (`place_setAll_congr`), so a place that another tree shares stays
shared.

Edits at paths of which none leads through another one can be made again without effect
(`setAll_setAll`). Merging is read off the places of the root as well, and its laws with it.
-/

namespace DesignSystem.Tree

variable {s t : Tree} {path other key value : String} {edits : List (String × String)}

/-! ### The places of the root -/

/-- The place of the root under a key. -/
def place (t : Tree) (key : String) : Place :=
  Keyed.get? t.members key

theorem ext_place (h : ∀ key, s.place key = t.place key) : s = t :=
  Tree.ext (s.ordered.1.ext t.ordered.1 h)

/-- Paths lead through the places of the root. -/
theorem at?_asNode_cons (t : Tree) (key : String) (rest : List String) :
    Place.at? (some t.asNode) (key :: rest) = (t.place key).at? rest := rfl

theorem token?_congr (h : s.place key = t.place key)
    (hPath : (Text.cut '.' path).head? = some key) : s.token? path = t.token? path := by
  obtain ⟨rest, hCut⟩ := List.head?_eq_some_iff.mp hPath
  rw [token?_eq, token?_eq, hCut, tokenAt?_eq, tokenAt?_eq, at?_asNode_cons, at?_asNode_cons, h]

/-- An edit changes the place that its path leads through. -/
theorem place_set (t : Tree) {first : String} {rest : List String}
    (hCut : Text.cut '.' path = first :: rest) (hKeys : "" ∉ Text.cut '.' path) (value key : String) :
    (t.set path value).place key =
      if first = key then Place.edit (first :: rest) value rest (t.place first)
      else t.place key := by
  have hNode := asNode_set (t := t) hKeys value
  obtain ⟨m, hm, hEdit⟩ := Place.edit_group_cons (first :: rest) value t.ordered.1 first rest
  rw [hCut, asNode, asNode, hEdit] at hNode
  have hMembers := Node.group.inj (Option.some.inj hNode)
  rw [place, hMembers, Keyed.get?_set, ← hm]
  rfl

theorem place_set_of_ne (t : Tree) (h : (Text.cut '.' path).head? ≠ some key) (value : String) :
    (t.set path value).place key = t.place key := by
  by_cases hKeys : "" ∈ Text.cut '.' path
  · rw [set_of_empty_key hKeys]
  · obtain ⟨first, rest, hCut⟩ := List.exists_cons_of_ne_nil (Text.cut_ne_nil '.' path)
    rw [place_set t hCut hKeys, if_neg]
    rintro rfl
    exact h (by rw [hCut, List.head?_cons])

/-- **What an edit leaves in a place depends on what the place held.** -/
theorem place_set_congr (h : s.place key = t.place key) (path value : String) :
    (s.set path value).place key = (t.set path value).place key := by
  by_cases hKeys : "" ∈ Text.cut '.' path
  · rwa [set_of_empty_key hKeys, set_of_empty_key hKeys]
  · obtain ⟨first, rest, hCut⟩ := List.exists_cons_of_ne_nil (Text.cut_ne_nil '.' path)
    rw [place_set s hCut hKeys, place_set t hCut hKeys]
    split
    · rename_i hFirst
      rw [hFirst, h]
    · exact h

/-! ### Two edits -/

/-- **Of two edits at one path the later one counts.** -/
theorem set_set (t : Tree) (path first second : String) :
    (t.set path first).set path second = t.set path second := by
  by_cases hKeys : "" ∈ Text.cut '.' path
  · rw [set_of_empty_key hKeys first]
  · refine asNode_injective (Option.some.inj ?_)
    rw [asNode_set hKeys, asNode_set hKeys, asNode_set hKeys, Place.edit_edit t.ordered_asNode]

/-- **Edits at paths of which neither leads through the other may come in either order.** -/
theorem set_comm (t : Tree) (h : Apart (Text.cut '.' path) (Text.cut '.' other))
    (value value' : String) :
    (t.set path value).set other value' = (t.set other value').set path value := by
  by_cases hKeys : "" ∈ Text.cut '.' path
  · rw [set_of_empty_key hKeys, set_of_empty_key hKeys]
  · by_cases hOther : "" ∈ Text.cut '.' other
    · rw [set_of_empty_key hOther, set_of_empty_key hOther]
    · refine asNode_injective (Option.some.inj ?_)
      rw [asNode_set hOther, asNode_set hKeys, asNode_set hKeys, asNode_set hOther,
        Place.edit_comm t.ordered_asNode h.symm]

/-! ### Lists of edits -/

theorem setAll_cons (t : Tree) (e : String × String) (edits : List (String × String)) :
    t.setAll (e :: edits) = (t.set e.1 e.2).setAll edits := rfl

theorem setAll_append (t : Tree) (edits more : List (String × String)) :
    t.setAll (edits ++ more) = (t.setAll edits).setAll more :=
  List.foldl_append

theorem place_setAll_of_ne (t : Tree)
    (h : ∀ e ∈ edits, (Text.cut '.' e.1).head? ≠ some key) :
    (t.setAll edits).place key = t.place key := by
  induction edits generalizing t with
  | nil => rfl
  | cons e edits ih =>
    rw [setAll_cons, ih _ fun d hd => h d (List.mem_cons_of_mem _ hd),
      place_set_of_ne t (h e List.mem_cons_self)]

/-- **What edits leave in a place depends on what the place held.** -/
theorem place_setAll_congr (h : s.place key = t.place key) (edits : List (String × String)) :
    (s.setAll edits).place key = (t.setAll edits).place key := by
  induction edits generalizing s t with
  | nil => exact h
  | cons e edits ih => exact ih (place_set_congr h e.1 e.2)

/-- None of the paths leads through another one. -/
def ApartAll (paths : List String) : Prop :=
  paths.Pairwise fun path other => Apart (Text.cut '.' path) (Text.cut '.' other)

instance (paths : List String) : Decidable (ApartAll paths) :=
  inferInstanceAs (Decidable (paths.Pairwise _))

theorem set_setAll_comm (t : Tree)
    (h : ∀ e ∈ edits, Apart (Text.cut '.' path) (Text.cut '.' e.1)) (value : String) :
    (t.set path value).setAll edits = (t.setAll edits).set path value := by
  induction edits generalizing t with
  | nil => rfl
  | cons e edits ih =>
    rw [setAll_cons, setAll_cons, set_comm t (h e List.mem_cons_self),
      ih _ fun d hd => h d (List.mem_cons_of_mem _ hd)]

/-- **Edits at paths apart from each other have no effect when they are made again.** -/
theorem setAll_setAll (t : Tree) (h : ApartAll (edits.map Prod.fst)) :
    (t.setAll edits).setAll edits = t.setAll edits := by
  induction edits generalizing t with
  | nil => rfl
  | cons e edits ih =>
    obtain ⟨hHead, hRest⟩ := List.pairwise_cons.mp h
    have hApart : ∀ d ∈ edits, Apart (Text.cut '.' e.1) (Text.cut '.' d.1) :=
      fun d hd => hHead d.1 (List.mem_map_of_mem hd)
    rw [setAll_cons, setAll_cons, set_setAll_comm t hApart, set_set, set_setAll_comm _ hApart,
      ih t hRest]

/-! ### The tokens -/

theorem tokenAt?_setAll_of_ne (t : Tree) {keys : List String}
    (h : ∀ e ∈ edits, keys ≠ Text.cut '.' e.1) :
    (t.setAll edits).tokenAt? keys = t.tokenAt? keys := by
  induction edits generalizing t with
  | nil => rfl
  | cons e edits ih =>
    rw [setAll_cons, ih _ fun d hd => h d (List.mem_cons_of_mem _ hd),
      tokenAt?_set_of_ne t (h e List.mem_cons_self)]

theorem token?_setAll_of_not_mem (t : Tree) (h : path ∉ edits.map Prod.fst) :
    (t.setAll edits).token? path = t.token? path :=
  tokenAt?_setAll_of_ne t fun _ he hCut => h (Text.cut_injective hCut ▸ List.mem_map_of_mem he)

/-- A path that is blocked leads to no token. -/
theorem token?_of_blocks (h : t.Blocks path) (hKeys : "" ∉ Text.cut '.' path) :
    t.token? path = none := by
  rw [token?, node?]
  rcases h.resolve_left hKeys with ⟨way, n, ⟨more, hMore⟩, hNe, hWay, hEnd⟩ | ⟨n, hNode, hTaken⟩
  · obtain ⟨key, rest, rfl⟩ := List.exists_cons_of_ne_nil fun hNil : more = [] =>
      hNe (by rw [← hMore, hNil, List.append_nil])
    rw [← hMore, Node.at?_append, hWay]
    cases n with
    | token old => rfl
    | metadata v => rfl
    | group members => cases hEnd
  · rw [hNode]
    cases n with
    | token old => cases hTaken
    | metadata v => rfl
    | group members => rfl

/-- **At its path an edit leaves the edited token, unless there is none before and after.** -/
theorem token?_set (t : Tree) (hKeys : "" ∉ Text.cut '.' path) (value : String) :
    (t.set path value).token? path = some (.edited (Text.cut '.' path) value (t.token? path)) ∨
      t.token? path = none ∧ (t.set path value).token? path = none := by
  by_cases hBlocks : t.Blocks path
  · have hNone := token?_of_blocks hBlocks hKeys
    exact .inr ⟨hNone, by rw [set_of_blocks hBlocks, hNone]⟩
  · exact .inl (token?_set_self hBlocks value)

/-- The same with other edits before and after it. -/
theorem token?_setAll (t : Tree) (hPaths : (edits.map Prod.fst).Nodup)
    (hEdit : (path, value) ∈ edits) (hKeys : "" ∉ Text.cut '.' path) :
    (t.setAll edits).token? path =
        some (.edited (Text.cut '.' path) value (t.token? path)) ∨
      t.token? path = none ∧ (t.setAll edits).token? path = none := by
  induction edits generalizing t with
  | nil => cases hEdit
  | cons e edits ih =>
    obtain ⟨hHead, hRest⟩ := List.nodup_cons.mp hPaths
    rw [setAll_cons]
    rcases List.mem_cons.mp hEdit with rfl | hEdit
    · rw [token?_setAll_of_not_mem _ hHead]
      exact token?_set t hKeys value
    · have hNe : path ≠ e.1 := fun hEq => hHead (hEq ▸ List.mem_map_of_mem hEdit)
      rw [← token?_set_of_ne t hNe e.2]
      exact ih _ hRest hEdit

theorem exists_tokenAt_set {keys : List String} (h : t.tokenAt? keys ≠ none)
    (path value : String) : (t.set path value).tokenAt? keys ≠ none := by
  by_cases hPath : keys = Text.cut '.' path
  · subst hPath
    by_cases hKeys : "" ∈ Text.cut '.' path
    · rwa [set_of_empty_key hKeys]
    · rcases token?_set t hKeys value with hSome | ⟨hNone, -⟩
      · rw [← token?_eq, hSome]
        exact nofun
      · exact absurd hNone h
  · rwa [tokenAt?_set_of_ne t hPath]

/-- **Edits do not remove tokens.** -/
theorem exists_tokenAt_setAll {keys : List String} (h : t.tokenAt? keys ≠ none)
    (edits : List (String × String)) : (t.setAll edits).tokenAt? keys ≠ none := by
  induction edits generalizing t with
  | nil => exact h
  | cons e edits ih => exact ih (exists_tokenAt_set h e.1 e.2)

theorem exists_token_setAll (h : t.token? path ≠ none) (edits : List (String × String)) :
    (t.setAll edits).token? path ≠ none :=
  exists_tokenAt_setAll h edits

theorem exists_group_set (hPath : path ≠ other) (h : t.group? path ≠ none) (value : String) :
    (t.set other value).group? path ≠ none := by
  by_cases hKeys : "" ∈ Text.cut '.' other
  · rwa [set_of_empty_key hKeys]
  · rw [group?_eq] at h ⊢
    rw [asNode_set hKeys]
    exact Place.group_edit_of_ne (fun hCut => hPath (Text.cut_injective hCut)) h

/-- Edits elsewhere do not remove groups. -/
theorem exists_group_setAll (hPath : path ∉ edits.map Prod.fst) (h : t.group? path ≠ none) :
    (t.setAll edits).group? path ≠ none := by
  induction edits generalizing t with
  | nil => exact h
  | cons e edits ih =>
    obtain ⟨hHead, hRest⟩ := not_or.mp (hPath ∘ List.mem_cons.mpr)
    exact ih hRest (exists_group_set hHead h e.2)

/-! ### Merging -/

theorem place_merge (t patch : Tree) (key : String) :
    (t.merge patch).place key = (patch.place key).or (t.place key) :=
  Keyed.get?_setAll t.members patch.ordered.1 key

theorem merge_assoc (t p q : Tree) : (t.merge p).merge q = t.merge (p.merge q) := by
  refine ext_place fun key => ?_
  rw [place_merge, place_merge, place_merge, place_merge, Option.or_assoc]

theorem merge_self (p : Tree) : p.merge p = p := by
  refine ext_place fun key => ?_
  rw [place_merge, Option.or_self]

/-- No place of the root is filled by both trees. -/
def Separate (p q : Tree) : Prop :=
  ∀ e ∈ p.members, q.place e.1 = none

instance (p q : Tree) : Decidable (Separate p q) :=
  inferInstanceAs (Decidable (∀ _ ∈ _, _))

/-- Separate patches may be merged in either order. -/
theorem merge_comm {p q : Tree} (h : Separate p q) : p.merge q = q.merge p := by
  refine ext_place fun key => ?_
  rw [place_merge, place_merge]
  cases hPlace : p.place key with
  | none => rw [Option.or_none, Option.none_or]
  | some n => rw [h _ (Keyed.mem_of_get? hPlace), Option.none_or, Option.or_none]

end DesignSystem.Tree
