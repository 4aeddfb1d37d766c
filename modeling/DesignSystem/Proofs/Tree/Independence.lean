import DesignSystem.Proofs.Tree.Edits
import Mathlib.Data.List.Pairwise
/-!
# Edits apart from each other

Two edits are independent if neither path leads through the other. What one of them does then leaves
no mark on the other: the same nodes are found at the other path (`at?_set_of_off_path`), and the
same edits of it are blocked (`blocks_set_iff`). So edits at paths apart from each other may be made
in any order (`setAll_perm`), and each of them comes to what it would come to in the tree as it was
(`showsEdit_setAll`, `set?_inTurn_eq_none_iff`).

`edits_commute_iff` says that there is no other reason for two edits to be independent, unless one of
them is never made. If one path leads through the other, the first of the two edits takes the place
that the second one needs.
-/

namespace DesignSystem.Tree

variable {t : Tree} {path other value : String} {keys : List String}
  {edits more : List (String × String)}

/-! ### What an edit leaves as it is -/

/-- Away from its path an edit leaves every node as it is, but for the groups on the way. These take
the place of nothing or of groups. -/
theorem at?_set_of_ne (t : Tree) (h : keys ≠ Text.cut '.' path) (value : String) :
    (t.set path value).asNode.at? keys = t.asNode.at? keys ∨
      keys <+: Text.cut '.' path ∧ (∀ n, t.asNode.at? keys = some n → ¬ n.IsEnd) ∧
        ∃ members, (t.set path value).asNode.at? keys = some (.group members) := by
  by_cases hKeys : "" ∈ Text.cut '.' path
  · rw [set_of_empty_key hKeys]
    exact .inl rfl
  · have hNode : (t.set path value).asNode.at? keys =
        (Place.edit (Text.cut '.' path) value (Text.cut '.' path) (some t.asNode)).at? keys := by
      rw [← asNode_set hKeys]
      rfl
    rw [hNode]
    rcases Place.at?_edit_of_ne h with hSame | ⟨hPrefix, hOpened, hMade⟩
    · exact .inl hSame
    · refine .inr ⟨hPrefix, fun m hAt hEnd => ?_, hMade⟩
      have hSome : (Place.opened? (t.asNode.at? keys)).isSome = true := hOpened
      rw [Place.opened?_eq_none_iff.mpr ⟨m, hAt, hEnd⟩] at hSome
      cases hSome

/-- Nodes that the path does not lead through stay. -/
theorem at?_set_of_off_path (t : Tree) (h : ¬ keys <+: Text.cut '.' path) (value : String) :
    (t.set path value).asNode.at? keys = t.asNode.at? keys := by
  have hNe : keys ≠ Text.cut '.' path := by
    intro hEq
    exact h (hEq ▸ List.prefix_rfl)
  rcases at?_set_of_ne t hNe value with hSame | ⟨hPrefix, -⟩
  · exact hSame
  · exact absurd hPrefix h

/-- Ends are neither made nor removed away from the path. -/
theorem isEnd_set_iff (t : Tree) (h : keys ≠ Text.cut '.' path) (value : String) :
    (∃ n, (t.set path value).asNode.at? keys = some n ∧ n.IsEnd) ↔
      ∃ n, t.asNode.at? keys = some n ∧ n.IsEnd := by
  rcases at?_set_of_ne t h value with hSame | ⟨-, hOpen, members, hMade⟩
  · rw [hSame]
  · constructor
    · rintro ⟨n, hAt, hEnd⟩
      rw [hMade] at hAt
      cases hAt
      exact hEnd.elim
    · rintro ⟨n, hAt, hEnd⟩
      exact absurd hEnd (hOpen n hAt)

/-- **An edit apart from a path blocks no edit there**, and clears the way for none. -/
theorem blocks_set_iff (t : Tree) (h : Apart (Text.cut '.' path) (Text.cut '.' other))
    (value : String) : (t.set other value).Blocks path ↔ t.Blocks path := by
  have hWay : ∀ way, way <+: Text.cut '.' path → way ≠ Text.cut '.' other := by
    intro way hPrefix hEq
    exact h.2 (hEq ▸ hPrefix)
  refine or_congr_right (or_congr ?_ ?_)
  · constructor
    · rintro ⟨way, n, hPrefix, hNe, hAt, hEnd⟩
      obtain ⟨m, hm⟩ := (isEnd_set_iff t (hWay way hPrefix) value).mp ⟨n, hAt, hEnd⟩
      exact ⟨way, m, hPrefix, hNe, hm⟩
    · rintro ⟨way, n, hPrefix, hNe, hAt, hEnd⟩
      obtain ⟨m, hm⟩ := (isEnd_set_iff t (hWay way hPrefix) value).mpr ⟨n, hAt, hEnd⟩
      exact ⟨way, m, hPrefix, hNe, hm⟩
  · rw [at?_set_of_off_path t h.1]

/-! ### What a list of edits leaves as it is -/

theorem at?_setAll_of_off_path (t : Tree) (h : ∀ e ∈ edits, ¬ keys <+: Text.cut '.' e.1) :
    (t.setAll edits).asNode.at? keys = t.asNode.at? keys := by
  induction edits generalizing t with
  | nil => rfl
  | cons e edits ih =>
    obtain ⟨hHead, hRest⟩ := List.forall_mem_cons.mp h
    rw [setAll_cons, ih _ hRest, at?_set_of_off_path t hHead]

theorem blocks_setAll_iff (t : Tree)
    (h : ∀ e ∈ edits, Apart (Text.cut '.' path) (Text.cut '.' e.1)) :
    (t.setAll edits).Blocks path ↔ t.Blocks path := by
  induction edits generalizing t with
  | nil => rfl
  | cons e edits ih =>
    obtain ⟨hHead, hRest⟩ := List.forall_mem_cons.mp h
    rw [setAll_cons, ih _ hRest, blocks_set_iff t hHead]

/-! ### Any order -/

/-- Two edits may come in either order. -/
def Swap (e d : String × String) : Prop :=
  ∀ t : Tree, (t.set e.1 e.2).set d.1 d.2 = (t.set d.1 d.2).set e.1 e.2

instance : Std.Symm Swap where
  symm _ _ h t := (h t).symm

/-- **Edits at paths apart from each other may be made in any order.** -/
theorem setAll_perm (t : Tree) (hPerm : edits.Perm more) (h : ApartAll (edits.map Prod.fst)) :
    t.setAll edits = t.setAll more := by
  have hPairs : edits.Pairwise Swap := by
    refine (List.pairwise_map.mp h).imp fun hApart => ?_
    intro u
    exact set_comm u hApart _ _
  have hSelf : ∀ e ∈ edits, Swap e e := fun _ _ _ => rfl
  refine hPerm.foldl_eq' (fun e he d hd => ?_) t
  exact hPairs.forall_of_forall hSelf he hd

/-- The paths of the other edits are apart from that of one among them. -/
theorem ApartAll.apart {before after : List (String × String)}
    (h : ApartAll ((before ++ (path, value) :: after).map Prod.fst)) :
    ∀ e ∈ before ++ after, Apart (Text.cut '.' path) (Text.cut '.' e.1) := by
  rw [ApartAll, List.pairwise_map, List.pairwise_middle fun hApart => hApart.symm] at h
  exact (List.pairwise_cons.mp h).1

/-- What `s` has at the path is the edit of `t` there: the edited token, or just the node of `t` where
something blocks the edit. -/
def ShowsEdit (t s : Tree) (path value : String) : Prop :=
  (¬ t.Blocks path →
      s.token? path = some (.edited (Text.cut '.' path) value (t.token? path))) ∧
    (t.Blocks path → s.node? path = t.node? path)

/-- **Each of the edits comes to what it would come to alone.** -/
theorem showsEdit_setAll (t : Tree) (h : ApartAll (edits.map Prod.fst))
    (hEdit : (path, value) ∈ edits) : t.ShowsEdit (t.setAll edits) path value := by
  obtain ⟨before, after, rfl⟩ := List.append_of_mem hEdit
  -- the edit may as well be the first
  have hNode : (t.setAll (before ++ (path, value) :: after)).node? path =
      (t.set path value).node? path := by
    rw [setAll_perm t List.perm_middle h, setAll_cons]
    exact at?_setAll_of_off_path _ fun e he => (h.apart e he).1
  constructor
  · intro hFree
    rw [token?, hNode]
    exact token?_set_self hFree value
  · intro hBlocks
    rw [hNode, set_of_blocks hBlocks]

/-- When its turn comes, an edit is refused exactly if something blocks it in the tree as it was. -/
theorem set?_inTurn_eq_none_iff (t : Tree) {before after : List (String × String)}
    (h : ApartAll ((before ++ (path, value) :: after).map Prod.fst)) :
    (t.setAll before).set? path value = none ↔ t.Blocks path := by
  rw [set?_eq_none_iff]
  exact blocks_setAll_iff t fun e he => h.apart e (List.mem_append_left after he)

/-- What a blocked edit would have written makes no difference. -/
theorem setAll_map_congr {α : Type} {es : List α} {pathOf f g : α → String}
    (h : ApartAll (es.map pathOf)) (hAgree : ∀ e ∈ es, f e = g e ∨ t.Blocks (pathOf e)) :
    t.setAll (es.map fun e => (pathOf e, f e)) = t.setAll (es.map fun e => (pathOf e, g e)) := by
  induction es generalizing t with
  | nil => rfl
  | cons e es ih =>
    obtain ⟨hHead, hRest⟩ := List.forall_mem_cons.mp hAgree
    obtain ⟨hApart, hPairs⟩ := List.pairwise_cons.mp h
    have hFirst : t.set (pathOf e) (f e) = t.set (pathOf e) (g e) := by
      rcases hHead with hSame | hBlocks
      · rw [hSame]
      · rw [set_of_blocks hBlocks, set_of_blocks hBlocks]
    rw [List.map_cons, List.map_cons, setAll_cons, setAll_cons, hFirst]
    refine ih hPairs fun d hd => (hRest d hd).imp_right fun hBlocks => ?_
    have hAway := (hApart _ (List.mem_map_of_mem hd)).symm
    exact (blocks_set_iff t hAway (g e)).mpr hBlocks

/-! ### Nested paths -/

theorem at?_empty (h : keys ≠ []) : empty.asNode.at? keys = none := by
  obtain ⟨key, rest, rfl⟩ := List.exists_cons_of_ne_nil h
  rfl

theorem token?_empty (path : String) : empty.token? path = none := by
  rw [token?, node?, at?_empty (Text.cut_ne_nil '.' path), Option.bind_none]

/-- In the empty tree nothing blocks an edit. -/
theorem not_blocks_empty (h : "" ∉ Text.cut '.' path) : ¬ empty.Blocks path := by
  rintro (hKeys | ⟨way, n, -, -, hAt, hEnd⟩ | ⟨n, hAt, -⟩)
  · exact h hKeys
  · by_cases hWay : way = []
    · subst hWay
      cases hAt
      exact hEnd
    · rw [at?_empty hWay] at hAt
      cases hAt
  · rw [at?_empty (Text.cut_ne_nil '.' path)] at hAt
    cases hAt

/-- An edit of the empty tree lands. -/
theorem token?_set_empty (h : "" ∉ Text.cut '.' path) (value : String) :
    (empty.set path value).token? path =
      some (.edited (Text.cut '.' path) value none) := by
  rw [token?_set_self (not_blocks_empty h), token?_empty]

/-- Nothing can be put below a token. -/
theorem blocks_of_token? {token : Token} (h : t.token? path = some token)
    (hPrefix : Text.cut '.' path <+: Text.cut '.' other) (hNe : path ≠ other) :
    t.Blocks other := by
  have hWay : Text.cut '.' path ≠ Text.cut '.' other := fun hCut => hNe (Text.cut_injective hCut)
  have hAt := tokenAt?_eq_some_iff.mp h
  exact .inr (.inl ⟨_, _, hPrefix, hWay, hAt, trivial⟩)

/-- **If one path leads through the other, the order of two edits matters**: in the empty tree each
of them lands, but not both. -/
theorem exists_set_ne_set (hPath : "" ∉ Text.cut '.' path) (hOther : "" ∉ Text.cut '.' other)
    (h : Text.cut '.' path <+: Text.cut '.' other) : ∃ (t : Tree) (value value' : String),
      (t.set path value).set other value' ≠ (t.set other value').set path value := by
  refine ⟨empty, "1", "2", fun hSame => ?_⟩
  have hFound := congrArg (fun u => u.token? other) hSame
  by_cases hEq : path = other
  · -- the later value counts
    subst hEq
    simp only [set_set, token?_set_empty hPath] at hFound
    have hValue : "2" = "1" := congrArg Token.value (Option.some.inj hFound)
    exact absurd hValue (by decide)
  · -- below the token at `path` there is no place for the other
    have hBlocks := blocks_of_token? (token?_set_empty hPath "1") h hEq
    have hMissing : ((empty.set path "1").set other "2").token? other = none := by
      rw [set_of_blocks hBlocks, token?_set_of_ne _ (Ne.symm hEq), token?_empty]
    have hThere : ((empty.set other "2").set path "1").token? other =
        some (.edited (Text.cut '.' other) "2" none) := by
      rw [token?_set_of_ne _ (Ne.symm hEq), token?_set_empty hOther]
    cases hMissing.symm.trans (hFound.trans hThere)

/-! ### The statement -/

/-- **Edits are independent of their order unless they are nested.** Two edits may come in either
order, in every tree and with all values, exactly if neither path leads through the other or one of
them has an empty key, so that its edit is refused everywhere. Of two edits at one path the later one
counts. -/
theorem edits_commute_iff (path other : String) :
    ((∀ (t : Tree) (value value' : String),
        (t.set path value).set other value' = (t.set other value').set path value) ↔
      Apart (Text.cut '.' path) (Text.cut '.' other) ∨
        "" ∈ Text.cut '.' path ∨ "" ∈ Text.cut '.' other) ∧
    ∀ (t : Tree) (value value' : String),
      (t.set path value).set path value' = t.set path value' := by
  refine ⟨⟨fun hComm => ?_, ?_⟩, fun t => set_set t path⟩
  · by_contra hNot
    rw [not_or, not_or] at hNot
    obtain ⟨hNested, hPath, hOther⟩ := hNot
    by_cases h : Text.cut '.' path <+: Text.cut '.' other
    · obtain ⟨t, value, value', hNe⟩ := exists_set_ne_set hPath hOther h
      exact hNe (hComm t value value')
    · have h' : Text.cut '.' other <+: Text.cut '.' path := by
        by_contra hNo
        exact hNested ⟨h, hNo⟩
      obtain ⟨t, value, value', hNe⟩ := exists_set_ne_set hOther hPath h'
      exact hNe (hComm t value' value).symm
  · rintro (hApart | hPath | hOther) t value value'
    · exact set_comm t hApart value value'
    · rw [set_of_empty_key hPath, set_of_empty_key hPath]
    · rw [set_of_empty_key hOther, set_of_empty_key hOther]

end DesignSystem.Tree
