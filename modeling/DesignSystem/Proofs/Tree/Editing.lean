import DesignSystem.Proofs.Tree.Listing
import DesignSystem.Proofs.Tree.Place
/-!
# What an edit of a tree changes

`Tree/Place.lean` follows an edit down its path. This file says of trees what it found there: an
edit is refused exactly if something blocks its path (`set?_eq_none_iff`), it leaves the edited
token (`token?_set_self`), and no other token shows it (`token?_set_of_ne`).

An edit can also be made in place, with the missing groups made on the way down, before the end of
the path is looked at. `writeInPlace_eq` says that a refused edit leaves no trace even so: nothing
can stand in the way below a group that was only just made.
-/

namespace DesignSystem

namespace Tree

theorem ordered_asNode (t : Tree) : Place.Ordered (some t.asNode) := by
  intro n hn
  cases hn
  exact t.ordered

theorem asNode_injective {s t : Tree} (h : s.asNode = t.asNode) : s = t :=
  Tree.ext (Node.group.inj h)

theorem tokenAt?_eq (t : Tree) (keys : List String) :
    t.tokenAt? keys = (Place.at? (some t.asNode) keys).bind Node.asToken? := rfl

theorem group?_eq (t : Tree) (path : String) :
    t.group? path = (Place.at? (some t.asNode) (Text.cut '.' path)).bind Node.asGroup? := rfl

theorem set?_of_empty_key {t : Tree} {path : String} (h : "" ∈ Text.cut '.' path)
    (value : String) : t.set? path value = none :=
  if_pos h

theorem set_of_empty_key {t : Tree} {path : String} (h : "" ∈ Text.cut '.' path)
    (value : String) : t.set path value = t := by
  rw [set, set?_of_empty_key h, Option.getD_none]

theorem members_set? {t : Tree} {path : String} (h : "" ∉ Text.cut '.' path) (value : String) :
    (t.set? path value).map members =
      Node.write (Text.cut '.' path) value (Text.cut '.' path) t.members := by
  rw [set?, if_neg h]
  split
  · rename_i members hWrite
    exact hWrite.symm
  · rename_i hWrite
    exact hWrite.symm

/-- An edit of a tree is one below its root. -/
theorem asNode_set? {t : Tree} {path : String} (h : "" ∉ Text.cut '.' path) (value : String) :
    (t.set? path value).map asNode =
      Place.edit? (Text.cut '.' path) value (Text.cut '.' path) (some t.asNode) := by
  rw [asNode, Place.edit?_group (Text.cut_ne_nil '.' path), ← members_set? h, Option.map_map]
  rfl

theorem asNode_set {t : Tree} {path : String} (h : "" ∉ Text.cut '.' path) (value : String) :
    some (t.set path value).asNode =
      Place.edit (Text.cut '.' path) value (Text.cut '.' path) (some t.asNode) := by
  rw [Place.edit, ← asNode_set? h, set]
  cases t.set? path value <;> rfl

/-- What keeps an edit at a path from landing: an empty key, a token or metadata on the way, a
group with members or metadata at the end. -/
def Blocks (t : Tree) (path : String) : Prop :=
  "" ∈ Text.cut '.' path ∨
    (∃ way n, way <+: Text.cut '.' path ∧ way ≠ Text.cut '.' path ∧
      t.asNode.at? way = some n ∧ n.IsEnd) ∨
    ∃ n, t.asNode.at? (Text.cut '.' path) = some n ∧ n.IsTaken

theorem set?_eq_none_iff {t : Tree} {path : String} (value : String) :
    t.set? path value = none ↔ t.Blocks path := by
  by_cases hEmpty : "" ∈ Text.cut '.' path
  · exact iff_of_true (set?_of_empty_key hEmpty value) (.inl hEmpty)
  · have hEdit := asNode_set? (t := t) hEmpty value
    rw [Blocks, or_iff_right hEmpty, ← Option.map_eq_none_iff, hEdit]
    exact Place.edit?_eq_none_iff

/-! ### What is found afterwards -/

/-- **An edit that nothing blocks leaves the edited token.** -/
theorem token?_set_self {t : Tree} {path : String} (h : ¬ t.Blocks path) (value : String) :
    (t.set path value).token? path =
      some (.edited (Text.cut '.' path) value (t.token? path)) := by
  have hEmpty : "" ∉ Text.cut '.' path := fun hEmpty => h (.inl hEmpty)
  have hLanded : t.set? path value ≠ none := fun hNone => h ((set?_eq_none_iff value).mp hNone)
  obtain ⟨t', hSome⟩ := Option.ne_none_iff_exists'.mp hLanded
  have hEdit := asNode_set? (t := t) hEmpty value
  rw [hSome, Option.map_some] at hEdit
  rw [set, hSome, Option.getD_some, token?_eq, tokenAt?_eq, Place.at?_edit? hEdit.symm]
  rfl

/-- The tokens of a tree, by the keys that lead to them, after an edit elsewhere. -/
theorem tokenAt?_set_of_ne (t : Tree) {path : String} {keys : List String}
    (h : keys ≠ Text.cut '.' path) (value : String) :
    (t.set path value).tokenAt? keys = t.tokenAt? keys := by
  by_cases hEmpty : "" ∈ Text.cut '.' path
  · rw [set_of_empty_key hEmpty]
  · rw [tokenAt?_eq, asNode_set hEmpty]
    exact Place.token_edit_of_ne h

/-- **No other token shows an edit.** -/
theorem token?_set_of_ne (t : Tree) {path other : String} (h : other ≠ path) (value : String) :
    (t.set path value).token? other = t.token? other :=
  tokenAt?_set_of_ne t (fun hCut => h (Text.cut_injective hCut)) value

/-- A blocked edit leaves the tree as it is. -/
theorem set_of_blocks {t : Tree} {path : String} (h : t.Blocks path) (value : String) :
    t.set path value = t := by
  rw [set, (set?_eq_none_iff value).mpr h, Option.getD_none]

/-! ### Edits in place -/

/-- The edit of `write` made in place: what is made on the way down stays, whatever comes. With
the members comes whether the edit has landed. -/
def Node.writeInPlace (full : List String) (value : String) :
    List String → Keyed Node → Keyed Node × Bool
  | [], members => (members, false)
  | [key], members => match Keyed.get? members key with
    | some (.token t) => (Keyed.set members key (.token { t with value }), true)
    | some (.group (_ :: _)) | some (.metadata _) => (members, false)
    | some (.group []) | none =>
      (Keyed.set members key (.token ⟨value, Token.Kind.infer full, none⟩), true)
  | key :: next :: rest, members =>
    let made := if Keyed.has members key then members else Keyed.set members key (.group [])
    match Keyed.get? made key with
    | some (.group inner) =>
      let below := writeInPlace full value (next :: rest) inner
      (Keyed.set made key (.group below.1), below.2)
    | some (.token _) | some (.metadata _) | none => (made, false)

/-- The edit of a tree made in place. -/
def setInPlace (t : Tree) (path value : String) : Keyed Node × Bool :=
  let segments := Text.cut '.' path
  if "" ∈ segments then (t.members, false) else Node.writeInPlace segments value segments t.members

/-- **Made in place, an edit comes to the same**, and leaves no trace if it is refused. -/
theorem Node.writeInPlace_eq (full : List String) (value : String) {path : List String}
    {members : Keyed Node} (hOrdered : (Node.group members).Ordered) :
    writeInPlace full value path members =
      ((write full value path members).getD members,
        (write full value path members).isSome) := by
  induction path generalizing members with
  | nil => rfl
  | cons key rest ih =>
    cases rest with
    | nil =>
      unfold writeInPlace write
      cases hGet : Keyed.get? members key with
      | none => rfl
      | some n =>
        cases n with
        | token t => rfl
        | metadata v => rfl
        | group inner => cases inner <;> rfl
    | cons next rest =>
      unfold writeInPlace write
      cases hGet : Keyed.get? members key with
      | none =>
        -- nothing blocks the way below the group that is made here
        have hLands : write full value (next :: rest) [] ≠ none := by
          rw [Place.write_cons]
          exact fun hNone => Place.edit?_none_ne_none rest (Option.map_eq_none_iff.mp hNone)
        obtain ⟨inner, hInner⟩ := Option.ne_none_iff_exists'.mp hLands
        have hMissing : Keyed.has members key = false := by rw [Keyed.has, hGet]; rfl
        have hMade : (Node.group []).Ordered := ⟨Keyed.ordered_nil, trivial⟩
        have hBelow := ih hMade
        simp only [hMissing, Bool.false_eq_true, if_false, Keyed.get?_set_self, hBelow, hInner,
          Option.getD_some, Option.isSome_some, Option.map_some, hOrdered.1.set_set]
      | some n =>
        have hThere : Keyed.has members key = true := by rw [Keyed.has, hGet]; rfl
        cases n with
        | token t => simp [hThere, hGet]
        | metadata v => simp [hThere, hGet]
        | group inner =>
          have hBelow := ih (Ordered.get? hOrdered.2 hGet)
          simp only [hThere, if_true, hGet, hBelow]
          cases write full value (next :: rest) inner with
          | none =>
            simp only [Option.getD_none, hOrdered.1.set_of_get? hGet]
            rfl
          | some inner' => rfl

theorem setInPlace_eq (t : Tree) (path value : String) :
    t.setInPlace path value = ((t.set path value).members, (t.set? path value).isSome) := by
  rw [setInPlace, set]
  by_cases hEmpty : "" ∈ Text.cut '.' path
  · rw [if_pos hEmpty, set?_of_empty_key hEmpty]
    rfl
  · rw [if_neg hEmpty, Node.writeInPlace_eq _ _ t.ordered, ← members_set? hEmpty]
    cases t.set? path value <;> rfl

/-! ### The statement -/

/-- **An edit lands completely and alone, or not at all.** It is refused exactly if something
blocks its path, and then leaves the tree as it is, also when it is made in place; otherwise the
edited token stands at the path. In either case every other path shows the token that it showed
before. -/
theorem set_lands_alone_or_not (t : Tree) (path value : String) :
    (t.set? path value = none ↔ t.Blocks path) ∧
      t.setInPlace path value = ((t.set path value).members, (t.set? path value).isSome) ∧
      (t.Blocks path → t.set path value = t) ∧
      (¬ t.Blocks path → (t.set path value).token? path =
        some (.edited (Text.cut '.' path) value (t.token? path))) ∧
      ∀ other, other ≠ path → (t.set path value).token? other = t.token? other :=
  ⟨set?_eq_none_iff value, setInPlace_eq t path value, fun h => set_of_blocks h value,
    fun h => token?_set_self h value, fun _ h => token?_set_of_ne t h value⟩

end Tree

end DesignSystem
