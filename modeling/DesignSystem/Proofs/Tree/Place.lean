import DesignSystem.Tree.Edit
import DesignSystem.Proofs.Keyed
/-!
# Edits place by place

An edit goes down a path and changes one member of every group on it. Here it is followed by the
places on the path, each of which holds a node or nothing yet: `Place.edit?` says what a place holds
after an edit below it, and `write_cons` that edits are made in this way. All else is by recursion
on the path.

`edit?_eq_none_iff` says what stands in the way of an edit, `at?_edit?` what is found at the path
afterwards, and `at?_edit?_of_ne` that everywhere else the same is found, but for the groups on the
way. Edits at paths of which neither leads through the other may come in either order
(`edit_comm`), and of two edits at one path the later one counts (`edit_edit`).
-/

namespace DesignSystem

/-- The token that an edit leaves at a path: the one that is there with the new text, or a new one
of the kind that the path calls for. -/
def Token.edited (path : List String) (value : String) : Option Token → Token
  | some old => { old with value }
  | none => ⟨value, Kind.infer path, none⟩

namespace Tree

/-- No path leads on from a token or from metadata. -/
def Node.IsEnd : Node → Prop
  | .token _ | .metadata _ => True
  | .group _ => False

/-- No token can take the place of a group with members or of metadata. -/
def Node.IsTaken : Node → Prop
  | .group (_ :: _) | .metadata _ => True
  | .group [] | .token _ => False

theorem Node.at?_append (n : Node) (path more : List String) :
    n.at? (path ++ more) = (n.at? path).bind fun inner => inner.at? more := by
  induction path generalizing n with
  | nil => rfl
  | cons key rest ih =>
    cases n with
    | token t => rfl
    | metadata v => rfl
    | group members =>
      rw [List.cons_append, at?, at?, Option.bind_assoc]
      exact congrArg _ (funext fun inner => ih inner)

/-- Neither of two paths leads through the other. -/
def Apart (path other : List String) : Prop :=
  ¬ path <+: other ∧ ¬ other <+: path

instance (path other : List String) : Decidable (Apart path other) :=
  inferInstanceAs (Decidable (_ ∧ _))

theorem Apart.symm {path other : List String} (h : Apart path other) : Apart other path :=
  ⟨h.2, h.1⟩

theorem Apart.tail {key : String} {path other : List String}
    (h : Apart (key :: path) (key :: other)) : Apart path other :=
  ⟨fun hPath => h.1 (List.cons_prefix_cons.mpr ⟨rfl, hPath⟩),
    fun hOther => h.2 (List.cons_prefix_cons.mpr ⟨rfl, hOther⟩)⟩

/-- A place in a tree, which holds a node or nothing yet. -/
abbrev Place := Option Node

namespace Place

/-- The members among which a path goes on: those of a group, none where there is no node yet. -/
def opened? : Place → Option (Keyed Node)
  | some n => n.asGroup?
  | none => some []

/-- The place at a path below a place. -/
def at? (place : Place) (path : List String) : Place :=
  place.bind fun n => n.at? path

/-- What a place holds after an edit at `path` below it, or nothing if the edit is refused. -/
def edit? (full : List String) (value : String) : List String → Place → Place
  | [], some (.token t) => some (.token { t with value })
  | [], some (.group (_ :: _)) | [], some (.metadata _) => none
  | [], some (.group []) | [], none => some (.token ⟨value, Token.Kind.infer full, none⟩)
  | key :: rest, place => (opened? place).bind fun inner =>
    (edit? full value rest (Keyed.get? inner key)).map fun n => .group (Keyed.set inner key n)

/-- What a place holds after an edit at `path` below it, which may be refused. -/
def edit (full : List String) (value : String) (path : List String) (place : Place) : Place :=
  (edit? full value path place).or place

/-- Whatever the place holds is in key order. -/
def Ordered (place : Place) : Prop :=
  ∀ n, place = some n → n.Ordered

variable {full full' : List String} {value value' : String} {path other : List String}
  {place : Place} {n : Node}

@[simp] theorem at?_nil (place : Place) : place.at? [] = place := by
  cases place <;> rfl

/-- A path below a place goes on among the members of the place. -/
theorem at?_cons (place : Place) (key : String) (rest : List String) :
    place.at? (key :: rest) = place.opened?.bind fun inner => at? (Keyed.get? inner key) rest := by
  cases place with
  | none => rfl
  | some n => cases n <;> rfl

theorem at?_group_cons (members : Keyed Node) (key : String) (rest : List String) :
    at? (some (.group members)) (key :: rest) = at? (Keyed.get? members key) rest := rfl

theorem opened?_eq_none_iff : place.opened? = none ↔ ∃ n, place = some n ∧ n.IsEnd := by
  cases place with
  | none => simp [opened?]
  | some n => cases n <;> simp [opened?, Node.asGroup?, Node.IsEnd]

theorem Ordered.opened {inner : Keyed Node} (h : place.Ordered)
    (hOpened : place.opened? = some inner) : (Node.group inner).Ordered := by
  cases place with
  | none =>
    cases hOpened
    exact ⟨Keyed.ordered_nil, trivial⟩
  | some n =>
    cases n with
    | token t => cases hOpened
    | metadata v => cases hOpened
    | group members =>
      cases hOpened
      exact h _ rfl

theorem ordered_member {inner : Keyed Node} (h : (Node.group inner).Ordered) (key : String) :
    Ordered (Keyed.get? inner key) :=
  fun _ hGet => Node.Ordered.get? h.2 hGet

/-- **Edits are made place by place.** -/
theorem write_cons (full : List String) (value key : String) (rest : List String)
    (members : Keyed Node) : Node.write full value (key :: rest) members =
      (edit? full value rest (Keyed.get? members key)).map fun n => Keyed.set members key n := by
  induction rest generalizing key members with
  | nil =>
    unfold Node.write
    cases hGet : Keyed.get? members key with
    | none => rfl
    | some n =>
      cases n with
      | token t => rfl
      | metadata v => rfl
      | group inner => cases inner <;> rfl
  | cons next rest ih =>
    unfold Node.write
    cases hGet : Keyed.get? members key with
    | none =>
      simp only [ih, edit?, opened?, Option.bind_some, Option.map_map]
      rfl
    | some n =>
      cases n with
      | token t => rfl
      | metadata v => rfl
      | group inner =>
        simp only [ih, edit?, opened?, Node.asGroup?, Option.bind_some, Option.map_map]
        rfl

theorem edit?_group (hPath : path ≠ []) (members : Keyed Node) :
    edit? full value path (some (.group members)) =
      (Node.write full value path members).map .group := by
  obtain ⟨key, rest, rfl⟩ := List.exists_cons_of_ne_nil hPath
  rw [write_cons, Option.map_map]
  rfl

/-- At the end of its path an edit finds a token, nothing, or a group without members. -/
theorem edit?_nil_eq_some (h : edit? full value [] place = some n) :
    (∃ t, place = some (.token t) ∧ n = .token { t with value }) ∨
      (place = none ∨ place = some (.group [])) ∧
        n = .token ⟨value, Token.Kind.infer full, none⟩ := by
  cases place with
  | none => exact .inr ⟨.inl rfl, (Option.some.inj h).symm⟩
  | some old =>
    cases old with
    | token t => exact .inl ⟨t, rfl, (Option.some.inj h).symm⟩
    | metadata v => cases h
    | group members =>
      cases members with
      | nil => exact .inr ⟨.inr rfl, (Option.some.inj h).symm⟩
      | cons e rest => cases h

theorem edit?_cons_eq_some_iff {key : String} {rest : List String} :
    edit? full value (key :: rest) place = some n ↔
      ∃ inner m, place.opened? = some inner ∧
        edit? full value rest (Keyed.get? inner key) = some m ∧
        n = .group (Keyed.set inner key m) := by
  simp only [edit?, Option.bind_eq_some_iff, Option.map_eq_some_iff]
  constructor
  · rintro ⟨inner, hOpened, m, hEdit, hEq⟩
    exact ⟨inner, m, hOpened, hEdit, hEq.symm⟩
  · rintro ⟨inner, m, hOpened, hEdit, hEq⟩
    exact ⟨inner, hOpened, m, hEdit, hEq.symm⟩

/-! ### What stands in the way -/

/-- **An edit is refused exactly if its path leads through an end, or ends where no token can be
put.** -/
theorem edit?_eq_none_iff : edit? full value path place = none ↔
    (∃ way n, way <+: path ∧ way ≠ path ∧ place.at? way = some n ∧ n.IsEnd) ∨
      ∃ n, place.at? path = some n ∧ n.IsTaken := by
  induction path generalizing place with
  | nil =>
    have hWay : ¬ ∃ way n, way <+: [] ∧ way ≠ [] ∧ place.at? way = some n ∧ n.IsEnd := by
      rintro ⟨way, n, hPrefix, hNe, -⟩
      exact hNe (List.prefix_nil.mp hPrefix)
    rw [or_iff_right hWay, at?_nil]
    cases place with
    | none => simp [edit?]
    | some n =>
      cases n with
      | token t => simp [edit?, Node.IsTaken]
      | metadata v => simp [edit?, Node.IsTaken]
      | group members => cases members <;> simp [edit?, Node.IsTaken]
  | cons key rest ih =>
    cases hOpened : place.opened? with
    | none =>
      obtain ⟨n, hPlace, hEnd⟩ := opened?_eq_none_iff.mp hOpened
      have hRefused : edit? full value (key :: rest) place = none := by
        rw [edit?, hOpened, Option.bind_none]
      refine iff_of_true hRefused (.inl ⟨[], n, List.nil_prefix, nofun, ?_, hEnd⟩)
      rw [at?_nil, hPlace]
    | some inner =>
      rw [edit?, hOpened, Option.bind_some, Option.map_eq_none_iff, ih, at?_cons, hOpened,
        Option.bind_some]
      refine or_congr_left ⟨?_, ?_⟩
      · rintro ⟨way, n, hPrefix, hNe, hAt, hEnd⟩
        refine ⟨key :: way, n, List.cons_prefix_cons.mpr ⟨rfl, hPrefix⟩, ?_, ?_, hEnd⟩
        · exact fun hEq => hNe (List.cons.inj hEq).2
        · rw [at?_cons, hOpened, Option.bind_some, hAt]
      · rintro ⟨way, n, hPrefix, hNe, hAt, hEnd⟩
        cases way with
        | nil =>
          rw [at?_nil] at hAt
          have hNone := opened?_eq_none_iff.mpr ⟨n, hAt, hEnd⟩
          cases hNone.symm.trans hOpened
        | cons first way =>
          obtain ⟨rfl, hRest⟩ := List.cons_prefix_cons.mp hPrefix
          rw [at?_cons, hOpened, Option.bind_some] at hAt
          exact ⟨way, n, hRest, fun hEq => hNe (congrArg _ hEq), hAt, hEnd⟩

/-- Nothing stands in the way where there is no node yet. -/
theorem edit?_none_ne_none (path : List String) : edit? full value path none ≠ none := by
  rw [ne_eq, edit?_eq_none_iff]
  rintro (⟨_, _, -, -, hAt, -⟩ | ⟨_, hAt, -⟩) <;> cases hAt

/-! ### What is found afterwards -/

/-- **At its path an edit leaves the edited token.** -/
theorem at?_edit? (h : edit? full value path place = some n) : at? (some n) path =
    some (.token (Token.edited full value ((place.at? path).bind Node.asToken?))) := by
  induction path generalizing place n with
  | nil =>
    obtain ⟨t, rfl, rfl⟩ | ⟨rfl | rfl, rfl⟩ := edit?_nil_eq_some h <;> rfl
  | cons key rest ih =>
    obtain ⟨inner, m, hOpened, hEdit, rfl⟩ := edit?_cons_eq_some_iff.mp h
    rw [at?_group_cons, Keyed.get?_set_self, ih hEdit, at?_cons, hOpened, Option.bind_some]

/-- **At every other path the same is found as before**, unless it is on the way: there an edit
makes groups where there was nothing, and leaves groups. -/
theorem at?_edit?_of_ne (h : edit? full value path place = some n) (hNe : other ≠ path) :
    at? (some n) other = place.at? other ∨
      other <+: path ∧ (place.at? other).opened?.isSome ∧
        ∃ members, at? (some n) other = some (.group members) := by
  induction path generalizing place n other with
  | nil =>
    obtain ⟨key, rest, rfl⟩ := List.exists_cons_of_ne_nil hNe
    obtain ⟨t, rfl, rfl⟩ | ⟨rfl | rfl, rfl⟩ := edit?_nil_eq_some h <;> exact .inl rfl
  | cons key rest ih =>
    obtain ⟨inner, m, hOpened, hEdit, rfl⟩ := edit?_cons_eq_some_iff.mp h
    cases other with
    | nil =>
      rw [at?_nil, at?_nil, hOpened]
      exact .inr ⟨List.nil_prefix, rfl, _, rfl⟩
    | cons key' rest' =>
      rw [at?_group_cons, at?_cons, hOpened, Option.bind_some, List.cons_prefix_cons]
      by_cases hKey : key = key'
      · subst hKey
        rw [Keyed.get?_set_self]
        have hRest : rest' ≠ rest := fun hEq => hNe (congrArg _ hEq)
        exact (ih hEdit hRest).imp_right fun hWay => ⟨⟨rfl, hWay.1⟩, hWay.2⟩
      · rw [Keyed.get?_set_of_ne inner hKey]
        exact .inl rfl

/-- The same of an edit that may be refused. -/
theorem at?_edit_of_ne (hNe : other ≠ path) :
    (edit full value path place).at? other = place.at? other ∨
      other <+: path ∧ (place.at? other).opened?.isSome ∧
        ∃ members, (edit full value path place).at? other = some (.group members) := by
  unfold edit
  cases h : edit? full value path place with
  | none =>
    rw [Option.none_or]
    exact .inl rfl
  | some n =>
    rw [Option.some_or]
    exact at?_edit?_of_ne h hNe

/-- **No other token shows an edit.** -/
theorem token_edit_of_ne (hNe : other ≠ path) :
    ((edit full value path place).at? other).bind Node.asToken? =
      (place.at? other).bind Node.asToken? := by
  rcases at?_edit_of_ne hNe with hSame | ⟨-, hOpened, members, hGroup⟩
  · rw [hSame]
  · rw [hGroup]
    cases hOld : place.at? other with
    | none => rfl
    | some old =>
      rw [hOld] at hOpened
      cases old with
      | token t => cases hOpened
      | metadata v => cases hOpened
      | group inner => rfl

/-- No edit takes a group away, unless it is one without members at the path. -/
theorem group_edit_of_ne (hNe : other ≠ path)
    (hGroup : (place.at? other).bind Node.asGroup? ≠ none) :
    ((edit full value path place).at? other).bind Node.asGroup? ≠ none := by
  rcases at?_edit_of_ne hNe with hSame | ⟨-, -, members, hMade⟩
  · rwa [hSame]
  · rw [hMade]
    exact nofun

/-! ### Several edits -/

/-- An edit below members sets one of them. -/
theorem edit_cons (full : List String) (value : String) {inner : Keyed Node}
    (hOpened : place.opened? = some inner) (hOrdered : Keyed.Ordered inner) (key : String)
    (rest : List String) : ∃ m, edit full value rest (Keyed.get? inner key) = some m ∧
      edit full value (key :: rest) place = some (.group (Keyed.set inner key m)) := by
  have hEdit : edit? full value (key :: rest) place =
      (edit? full value rest (Keyed.get? inner key)).map fun n =>
        .group (Keyed.set inner key n) := by
    rw [edit?, hOpened, Option.bind_some]
  unfold edit
  rw [hEdit]
  cases hRest : edit? full value rest (Keyed.get? inner key) with
  | some m => exact ⟨m, rfl, rfl⟩
  | none =>
    cases hGet : Keyed.get? inner key with
    | none =>
      rw [hGet] at hRest
      exact absurd hRest (edit?_none_ne_none rest)
    | some m =>
      refine ⟨m, rfl, ?_⟩
      -- there is a member, so the place is no empty one but holds the group
      rw [hOrdered.set_of_get? hGet]
      cases place with
      | none =>
        cases hOpened
        cases hGet
      | some old =>
        cases old with
        | token t => cases hOpened
        | metadata v => cases hOpened
        | group members =>
          cases hOpened
          rfl

theorem edit_group_cons (full : List String) (value : String) {members : Keyed Node}
    (hOrdered : Keyed.Ordered members) (key : String) (rest : List String) :
    ∃ m, edit full value rest (Keyed.get? members key) = some m ∧
      edit full value (key :: rest) (some (.group members)) =
        some (.group (Keyed.set members key m)) :=
  edit_cons full value rfl hOrdered key rest

/-- A place that cannot be opened keeps what it holds. -/
theorem edit_cons_of_none (hOpened : place.opened? = none) (key : String) (rest : List String) :
    edit full value (key :: rest) place = place := by
  rw [edit, edit?, hOpened, Option.bind_none, Option.none_or]

/-- **Of two edits at one path the later one counts.** -/
theorem edit_edit (hOrdered : place.Ordered) :
    edit full value' path (edit full value path place) = edit full value' path place := by
  induction path generalizing place with
  | nil =>
    cases place with
    | none => rfl
    | some n =>
      cases n with
      | token t => rfl
      | metadata v => rfl
      | group members => cases members <;> rfl
  | cons key rest ih =>
    cases hOpened : place.opened? with
    | none => rw [edit_cons_of_none hOpened]
    | some inner =>
      have hInner := hOrdered.opened hOpened
      obtain ⟨m, hFirst, hEdit⟩ := edit_cons full value hOpened hInner.1 key rest
      obtain ⟨m', hSecond, hEdit'⟩ := edit_group_cons full value' (hInner.1.set key m) key rest
      obtain ⟨m'', hOnly, hEdit''⟩ := edit_cons full value' hOpened hInner.1 key rest
      rw [Keyed.get?_set_self, ← hFirst, ih (ordered_member hInner key), hOnly] at hSecond
      cases hSecond
      rw [hEdit, hEdit', hEdit'', hInner.1.set_set]

/-- **Edits at paths of which neither leads through the other may come in either order.** -/
theorem edit_comm (hOrdered : place.Ordered) (hApart : Apart path other) :
    edit full value path (edit full' value' other place) =
      edit full' value' other (edit full value path place) := by
  induction path generalizing other place with
  | nil => exact absurd List.nil_prefix hApart.1
  | cons key rest ih =>
    cases other with
    | nil => exact absurd List.nil_prefix hApart.2
    | cons key' rest' =>
      cases hOpened : place.opened? with
      | none =>
        rw [edit_cons_of_none hOpened, edit_cons_of_none hOpened, edit_cons_of_none hOpened]
      | some inner =>
        have hInner := hOrdered.opened hOpened
        obtain ⟨m, hm, hEdit⟩ := edit_cons full value hOpened hInner.1 key rest
        obtain ⟨m', hm', hEdit'⟩ := edit_cons full' value' hOpened hInner.1 key' rest'
        obtain ⟨k, hk, hBoth⟩ := edit_group_cons full value (hInner.1.set key' m') key rest
        obtain ⟨k', hk', hBoth'⟩ := edit_group_cons full' value' (hInner.1.set key m) key' rest'
        rw [hEdit, hEdit', hBoth, hBoth']
        by_cases hKey : key = key'
        · subst hKey
          rw [Keyed.get?_set_self, ← hm'] at hk
          rw [Keyed.get?_set_self, ← hm, ← ih (ordered_member hInner key) hApart.tail, hk] at hk'
          cases hk'
          rw [hInner.1.set_set, hInner.1.set_set]
        · rw [Keyed.get?_set_of_ne inner (Ne.symm hKey), hm] at hk
          rw [Keyed.get?_set_of_ne inner hKey, hm'] at hk'
          cases hk
          cases hk'
          rw [hInner.1.set_comm (Ne.symm hKey)]

end Place

end Tree

end DesignSystem
