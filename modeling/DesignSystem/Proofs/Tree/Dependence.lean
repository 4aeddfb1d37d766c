import DesignSystem.Proofs.Token.Alias
import DesignSystem.Proofs.Tree.Editing
import DesignSystem.Proofs.Tree.Resolution
/-!
# What resolving an alias depends on

Following aliases looks up one path after the other. `followLogged` does the same and keeps a log of
these paths, so `lookups` are the paths that resolving a path has looked up in the end, whatever it
has come to. They are those to which aliases lead (`mem_lookups_iff`), a path without a token at the
end included.

Two trees that have the same tokens at these paths are followed alike, round by round
(`followLogged_congr`). So an edit elsewhere is never noticed, neither in a literal nor in the paths
of an error. And no path is looked up in vain: a literal that lands at any of them is what resolving
comes to (`resolve_set_of_reaches`).
-/

namespace DesignSystem

namespace Tree

variable {s t : Tree} {path other current next value : String} {visited : List String}

/-! ### Lookups -/

/-- Following with a log of the paths that are looked up. -/
def followLogged (t : Tree) (visited : List String) (current : String) :
    Except AliasError String × List String :=
  if _ : current ∈ visited then (.error (.cycle (visited ++ [current])), [])
  else match _h : t.token? current with
    | none => match visited.getLast? with
      | none => (.error (.missing current), [current])
      | some source => (.error (.unresolved source current), [current])
    | some token => match token.parsed with
      | .literal text => (.ok text, [current])
      | .aliasTo target =>
        let (result, later) := t.followLogged (visited ++ [current]) target.dotted
        (result, current :: later)
termination_by (t.unvisited visited).length
decreasing_by exact unvisited_length_lt ‹_› (mem_addresses_of_token? ‹_›)

/-- The paths that are looked up in resolving a path. -/
def lookups (t : Tree) (path : String) : List String :=
  (t.followLogged [] path).2

/-- Following stops at a path that was passed, or where nothing leads on; else it goes on where the
alias aims. -/
theorem follow_induction (t : Tree) {motive : List String → String → Prop}
    (seen : ∀ visited current, current ∈ visited → motive visited current)
    (halts : ∀ visited current, current ∉ visited → t.Halts current → motive visited current)
    (aims : ∀ visited current next, current ∉ visited → t.Aims current next →
      motive (visited ++ [current]) next → motive visited current)
    (visited : List String) (current : String) : motive visited current := by
  fun_induction t.follow visited current with
  | case1 visited current hSeen => exact seen visited current hSeen
  | case2 visited current hNew hNone => exact halts visited current hNew (halts_of_none hNone)
  | case3 visited current hNew hNone => exact halts visited current hNew (halts_of_none hNone)
  | case4 visited current hNew token hToken text hParsed =>
    exact halts visited current hNew (halts_of_literal hToken hParsed)
  | case5 visited current hNew token hToken target hParsed ih =>
    exact aims visited current _ hNew ⟨token, target, hToken, hParsed, rfl⟩ ih

/-- What following comes to where nothing leads on: the text of the token, if there is one. -/
theorem follow_of_halts (hNew : current ∉ visited) (hHalts : t.Halts current) :
    t.follow visited current = match t.token? current, visited.getLast? with
      | some token, _ => .ok token.value
      | none, none => .error (.missing current)
      | none, some source => .error (.unresolved source current) := by
  cases hToken : t.token? current with
  | none =>
    rw [follow_of_none hNew hToken]
    cases visited.getLast? <;> rfl
  | some token =>
    have hParsed : token.parsed = .literal token.value := by
      refine Token.Value.parse_of_not_alias ?_
      cases hTarget : Token.Value.parse token.value with
      | literal text => rfl
      | aliasTo target => exact absurd ⟨token, target, hToken, hTarget, rfl⟩ (hHalts target.dotted)
    rw [follow_of_literal hNew hToken hParsed]

theorem followLogged_of_mem (hSeen : current ∈ visited) :
    t.followLogged visited current = (t.follow visited current, []) := by
  rw [followLogged, dif_pos hSeen, follow_of_mem hSeen]

theorem followLogged_of_halts (hNew : current ∉ visited) (hHalts : t.Halts current) :
    t.followLogged visited current = (t.follow visited current, [current]) := by
  rw [followLogged, dif_neg hNew]
  split
  · rename_i hNone
    rw [follow_of_none hNew hNone]
    cases visited.getLast? <;> rfl
  · rename_i token hToken
    cases hParsed : token.parsed with
    | literal text => rw [follow_of_literal hNew hToken hParsed]
    | aliasTo target => exact absurd ⟨token, target, hToken, hParsed, rfl⟩ (hHalts target.dotted)

theorem followLogged_of_aims (hNew : current ∉ visited) (hAims : t.Aims current next) :
    t.followLogged visited current =
      ((t.followLogged (visited ++ [current]) next).1,
        current :: (t.followLogged (visited ++ [current]) next).2) := by
  obtain ⟨token, target, hToken, hParsed, rfl⟩ := hAims
  rw [followLogged, dif_neg hNew]
  split
  · rename_i hNone
    cases hToken.symm.trans hNone
  · rename_i other hOther
    cases hToken.symm.trans hOther
    rw [hParsed]

/-- **The log does not change what following comes to.** -/
theorem followLogged_fst (t : Tree) (visited : List String) (current : String) :
    (t.followLogged visited current).1 = t.follow visited current := by
  induction visited, current using follow_induction t with
  | seen visited current hSeen => rw [followLogged_of_mem hSeen]
  | halts visited current hNew hHalts => rw [followLogged_of_halts hNew hHalts]
  | aims visited current next hNew hAims ih =>
    rw [followLogged_of_aims hNew hAims, ih]
    obtain ⟨token, target, hToken, hParsed, rfl⟩ := hAims
    rw [follow_of_alias hNew hToken hParsed]

/-- **Two trees with the same tokens at the paths that are looked up are followed alike.** -/
theorem followLogged_congr
    (h : ∀ other ∈ (t.followLogged visited current).2, s.token? other = t.token? other) :
    s.followLogged visited current = t.followLogged visited current := by
  induction visited, current using follow_induction t with
  | seen visited current hSeen =>
    rw [followLogged_of_mem hSeen, followLogged_of_mem hSeen, follow_of_mem hSeen,
      follow_of_mem hSeen]
  | halts visited current hNew hHalts =>
    rw [followLogged_of_halts hNew hHalts] at h
    have hSame := h current List.mem_cons_self
    have hHalts' : s.Halts current := by
      intro next
      rw [Aims, hSame]
      exact hHalts next
    rw [followLogged_of_halts hNew hHalts, followLogged_of_halts hNew hHalts',
      follow_of_halts hNew hHalts, follow_of_halts hNew hHalts', hSame]
  | aims visited current next hNew hAims ih =>
    rw [followLogged_of_aims hNew hAims] at h ⊢
    have hSame := h current List.mem_cons_self
    have hAims' : s.Aims current next := by rwa [Aims, hSame]
    rw [followLogged_of_aims hNew hAims',
      ih fun other hOther => h other (List.mem_cons_of_mem _ hOther)]

/-! ### Where aliases lead -/

/-- Aliases lead to every path in the log. -/
theorem reaches_of_mem_log (h : other ∈ (t.followLogged visited current).2) :
    Relation.ReflTransGen t.Aims current other := by
  induction visited, current using follow_induction t with
  | seen visited current hSeen =>
    rw [followLogged_of_mem hSeen] at h
    cases h
  | halts visited current hNew hHalts =>
    rw [followLogged_of_halts hNew hHalts] at h
    rw [List.mem_singleton.mp h]
  | aims visited current next hNew hAims ih =>
    rw [followLogged_of_aims hNew hAims] at h
    rcases List.mem_cons.mp h with rfl | h
    · exact .refl
    · exact .head hAims (ih h)

/-- What was passed and what is in the log lead on among themselves. -/
theorem closed_log
    (hVisited : ∀ p ∈ visited, ∀ q, t.Aims p q → q ∈ visited ++ [current]) :
    ∀ p ∈ visited ++ (t.followLogged visited current).2, ∀ q, t.Aims p q →
      q ∈ visited ++ (t.followLogged visited current).2 := by
  induction visited, current using follow_induction t with
  | seen visited current hSeen =>
    rw [followLogged_of_mem hSeen, List.append_nil]
    intro p hp q hAims
    rcases List.mem_append.mp (hVisited p hp q hAims) with hq | hq
    · exact hq
    · rw [List.mem_singleton.mp hq]
      exact hSeen
  | halts visited current hNew hHalts =>
    rw [followLogged_of_halts hNew hHalts]
    intro p hp q hAims
    rcases List.mem_append.mp hp with hp | hp
    · exact hVisited p hp q hAims
    · rw [List.mem_singleton.mp hp] at hAims
      exact absurd hAims (hHalts q)
  | aims visited current next hNew hAims ih =>
    have hLog : visited ++ (t.followLogged visited current).2 =
        visited ++ [current] ++ (t.followLogged (visited ++ [current]) next).2 := by
      rw [followLogged_of_aims hNew hAims, List.append_assoc]
      rfl
    rw [hLog]
    refine ih fun p hp q hq => ?_
    rcases List.mem_append.mp hp with hp | hp
    · exact List.mem_append_left _ (hVisited p hp q hq)
    · rw [List.mem_singleton.mp hp] at hq
      rw [hq.unique hAims]
      exact List.mem_append_right _ List.mem_cons_self

/-- **What is looked up is what aliases lead to.** -/
theorem mem_lookups_iff : other ∈ t.lookups path ↔ Relation.ReflTransGen t.Aims path other := by
  constructor
  · exact reaches_of_mem_log
  · intro hReach
    have hStart : path ∈ t.lookups path := by
      by_cases hHalts : t.Halts path
      · rw [lookups, followLogged_of_halts List.not_mem_nil hHalts]
        exact List.mem_cons_self
      · obtain ⟨next, hAims⟩ := not_forall_not.mp hHalts
        rw [lookups, followLogged_of_aims List.not_mem_nil hAims]
        exact List.mem_cons_self
    induction hReach with
    | refl => exact hStart
    | tail _ hAims ih =>
      have hClosed : ∀ p ∈ [] ++ t.lookups path, ∀ q, t.Aims p q → q ∈ [] ++ t.lookups path :=
        closed_log nofun
      exact hClosed _ ih _ hAims

/-! ### Edits -/

/-- **An edit of a path that is not looked up is not noticed**: following goes the same way. -/
theorem followLogged_set (h : other ∉ t.lookups path) (value : String) :
    (t.set other value).followLogged [] path = t.followLogged [] path := by
  refine followLogged_congr fun p hp => token?_set_of_ne t ?_ value
  rintro rfl
  exact h hp

/-- A literal that lands at a path is the end of a chain. -/
theorem chain_set_self (hBlocks : ¬ t.Blocks path)
    (hLiteral : Token.Value.parse value = .literal value) : (t.set path value).Chain path [] value := by
  refine .literal (token?_set_self hBlocks value) ?_
  cases t.token? path <;> exact hLiteral

/-- **A literal that lands where aliases lead to is what resolving comes to.** -/
theorem resolve_set_of_reaches (hReach : Relation.ReflTransGen t.Aims path other)
    (hBlocks : ¬ t.Blocks other) (hLiteral : Token.Value.parse value = .literal value) :
    (t.set other value).resolve path = .ok value := by
  refine resolve_eq_ok_iff.mpr ?_
  -- Aliases may lead through the edited path more than once; the first time is where they end.
  induction hReach using Relation.ReflTransGen.head_induction_on with
  | refl => exact ⟨[], chain_set_self hBlocks hLiteral⟩
  | @head path next hAims _ ih =>
    by_cases hHere : path = other
    · rw [hHere]
      exact ⟨[], chain_set_self hBlocks hLiteral⟩
    · obtain ⟨token, target, hToken, hParsed, rfl⟩ := hAims
      obtain ⟨targets, hRest⟩ := ih
      rw [← token?_set_of_ne t hHere value] at hToken
      exact ⟨target :: targets, .step hToken hParsed hRest⟩

/-! ### The statement -/

/-- **Resolving an alias depends on the paths that it looks up, and on nothing else.** These are the
path itself and all that aliases lead to from it. An edit of any other path changes nothing, neither
the literal that is found nor a word of the error, and the same paths are looked up again. Each of
them matters: a literal that lands there is what resolving finds. -/
theorem resolution_depends_on_lookups (t : Tree) (path : String) :
    t.followLogged [] path = (t.resolve path, t.lookups path) ∧
      (∀ other, other ∈ t.lookups path ↔ Relation.ReflTransGen t.Aims path other) ∧
      (∀ other value, other ∉ t.lookups path →
        (t.set other value).resolve path = t.resolve path ∧
          (t.set other value).lookups path = t.lookups path) ∧
      ∀ other value, other ∈ t.lookups path → ¬ t.Blocks other →
        (Token.Value.parse value).isAlias = false →
          (t.set other value).resolve path = .ok value := by
  refine ⟨Prod.ext (followLogged_fst t [] path) rfl, fun _ => mem_lookups_iff, ?_, ?_⟩
  · intro other value hOther
    have hSame := followLogged_set hOther value
    refine ⟨?_, congrArg Prod.snd hSame⟩
    rw [resolve, resolve, ← followLogged_fst, ← followLogged_fst, hSame]
  · intro other value hOther hBlocks hLiteral
    exact resolve_set_of_reaches (mem_lookups_iff.mp hOther) hBlocks
      (Token.Value.parse_of_not_alias hLiteral)

end Tree

end DesignSystem
