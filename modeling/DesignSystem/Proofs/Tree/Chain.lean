import DesignSystem.Tree.Alias
import Mathlib.Logic.Relation
/-!
# Chains of aliases

`Chain t path targets text` says that the aliases of a tree lead from a path over the given targets
to a literal. Following aliases finds exactly these chains (`resolve_eq_ok_iff`): a chain that ends
in a literal is the only one from its path (`Chain.unique`), so its paths are all different and it
is never taken for a cycle.

Where aliases never lead away from tokens, following them finds a literal or runs into a cycle
(`follow_of_closed`).
-/

namespace DesignSystem.Tree

/-- The token at a path is an alias of the one at `next`. -/
def Aims (t : Tree) (path next : String) : Prop :=
  ∃ token target, t.token? path = some token ∧ token.parsed = .aliasTo target ∧
    target.dotted = next

/-- The aliases of a tree lead from a path over the given targets to a literal. -/
inductive Chain (t : Tree) : String → List Token.Target → String → Prop
  | literal {path text : String} {token : Token} (hToken : t.token? path = some token)
      (hParsed : token.parsed = .literal text) : Chain t path [] text
  | step {path text : String} {token : Token} {target : Token.Target}
      {targets : List Token.Target} (hToken : t.token? path = some token)
      (hParsed : token.parsed = .aliasTo target) (hRest : Chain t target.dotted targets text) :
      Chain t path (target :: targets) text

variable {t : Tree} {path text : String} {visited : List String} {token : Token}

theorem Chain.exists_token {targets : List Token.Target} (h : t.Chain path targets text) :
    ∃ token, t.token? path = some token := by
  cases h with
  | literal hToken _ => exact ⟨_, hToken⟩
  | step hToken _ _ => exact ⟨_, hToken⟩

/-- **There is only one chain from a path.** -/
theorem Chain.unique {targets targets' : List Token.Target} {text' : String}
    (h : t.Chain path targets text) (h' : t.Chain path targets' text') :
    targets = targets' ∧ text = text' := by
  induction h generalizing targets' text' with
  | literal hToken hParsed =>
    cases h' with
    | literal hToken' hParsed' =>
      cases hToken.symm.trans hToken'
      cases hParsed.symm.trans hParsed'
      exact ⟨rfl, rfl⟩
    | step hToken' hParsed' hRest' =>
      cases hToken.symm.trans hToken'
      cases hParsed.symm.trans hParsed'
  | step hToken hParsed hRest ih =>
    cases h' with
    | literal hToken' hParsed' =>
      cases hToken.symm.trans hToken'
      cases hParsed.symm.trans hParsed'
    | step hToken' hParsed' hRest' =>
      cases hToken.symm.trans hToken'
      cases hParsed.symm.trans hParsed'
      obtain ⟨rfl, rfl⟩ := ih hRest'
      exact ⟨rfl, rfl⟩

/-- A chain goes on where its alias aims. -/
theorem Chain.of_aims {targets : List Token.Target} {next : String}
    (h : t.Chain path targets text) (hAims : t.Aims path next) :
    ∃ rest, t.Chain next rest text ∧ rest.length < targets.length := by
  obtain ⟨token, target, hToken, hParsed, rfl⟩ := hAims
  cases h with
  | literal hToken' hParsed' =>
    cases hToken.symm.trans hToken'
    cases hParsed.symm.trans hParsed'
  | step hToken' hParsed' hRest =>
    cases hToken.symm.trans hToken'
    cases hParsed.symm.trans hParsed'
    exact ⟨_, hRest, Nat.lt_succ_self _⟩

theorem Chain.of_transGen {targets : List Token.Target} {next : String}
    (h : t.Chain path targets text) (hAims : Relation.TransGen t.Aims path next) :
    ∃ rest, t.Chain next rest text ∧ rest.length < targets.length := by
  induction hAims with
  | single hAims => exact h.of_aims hAims
  | tail _ hAims ih =>
    obtain ⟨rest, hRest, hLess⟩ := ih
    obtain ⟨rest', hRest', hLess'⟩ := hRest.of_aims hAims
    exact ⟨rest', hRest', Nat.lt_trans hLess' hLess⟩

/-- **A chain that ends in a literal never comes back to its path.** -/
theorem Chain.not_transGen {targets : List Token.Target} (h : t.Chain path targets text) :
    ¬ Relation.TransGen t.Aims path path := by
  intro hCycle
  obtain ⟨rest, hRest, hLess⟩ := h.of_transGen hCycle
  rw [(h.unique hRest).1] at hLess
  exact Nat.lt_irrefl _ hLess

/-! ### Following -/

theorem follow_of_literal (hNew : path ∉ visited) (hToken : t.token? path = some token)
    (hParsed : token.parsed = .literal text) : t.follow visited path = .ok text := by
  unfold follow
  rw [dif_neg hNew]
  split
  · rename_i hNone
    cases hToken.symm.trans hNone
  · rename_i other hOther
    cases hToken.symm.trans hOther
    rw [hParsed]

theorem follow_of_alias {target : Token.Target} (hNew : path ∉ visited)
    (hToken : t.token? path = some token) (hParsed : token.parsed = .aliasTo target) :
    t.follow visited path = t.follow (visited ++ [path]) target.dotted := by
  rw [follow, dif_neg hNew]
  split
  · rename_i hNone
    cases hToken.symm.trans hNone
  · rename_i other hOther
    cases hToken.symm.trans hOther
    rw [hParsed]

/-- What following finds is the end of a chain. -/
theorem chain_of_follow (h : t.follow visited path = .ok text) :
    ∃ targets, t.Chain path targets text := by
  fun_induction t.follow visited path with
  | case1 => cases h
  | case2 => cases h
  | case3 => cases h
  | case4 visited path hNew token hToken text' hParsed =>
    cases h
    exact ⟨[], .literal hToken hParsed⟩
  | case5 visited path hNew token hToken target hParsed ih =>
    obtain ⟨targets, hRest⟩ := ih h
    exact ⟨target :: targets, .step hToken hParsed hRest⟩

/-- A path is none of those on longer chains. -/
theorem Chain.not_mem {targets : List Token.Target} (h : t.Chain path targets text)
    (hLonger : ∀ p ∈ visited, ∃ longer, t.Chain p longer text ∧ targets.length < longer.length) :
    path ∉ visited := by
  intro hMem
  obtain ⟨longer, hOther, hLess⟩ := hLonger path hMem
  rw [(h.unique hOther).1] at hLess
  exact Nat.lt_irrefl _ hLess

/-- A chain is followed to its end, if what was passed before lies on longer ones. -/
theorem follow_of_chain {targets : List Token.Target} (h : t.Chain path targets text)
    (hLonger : ∀ p ∈ visited, ∃ longer, t.Chain p longer text ∧ targets.length < longer.length) :
    t.follow visited path = .ok text := by
  induction h generalizing visited with
  | literal hToken hParsed =>
    exact follow_of_literal ((Chain.literal hToken hParsed).not_mem hLonger) hToken hParsed
  | step hToken hParsed hRest ih =>
    have hHere := Chain.step hToken hParsed hRest
    rw [follow_of_alias (hHere.not_mem hLonger) hToken hParsed]
    refine ih fun p hp => ?_
    rcases List.mem_append.mp hp with hp | hp
    · obtain ⟨longer, hOther, hLess⟩ := hLonger p hp
      exact ⟨longer, hOther, Nat.lt_trans (Nat.lt_succ_self _) hLess⟩
    · rw [List.mem_singleton.mp hp]
      exact ⟨_, hHere, Nat.lt_succ_self _⟩

/-- **A path resolves to a literal exactly if a chain leads from it to this literal.** -/
theorem resolve_eq_ok_iff : t.resolve path = .ok text ↔ ∃ targets, t.Chain path targets text := by
  constructor
  · exact chain_of_follow
  · rintro ⟨targets, h⟩
    exact follow_of_chain h nofun

/-- **Where aliases never lead away from tokens**, following them finds a literal or a cycle. -/
theorem follow_of_closed {p : String → Prop} (hTokens : ∀ path, p path → t.token? path ≠ none)
    (hClosed : ∀ path next, p path → t.Aims path next → p next) (hPath : p path) :
    (∃ text, t.follow visited path = .ok text) ∨
      ∃ cycle, t.follow visited path = .error (.cycle cycle) := by
  fun_induction t.follow visited path with
  | case1 => exact .inr ⟨_, rfl⟩
  | case2 visited path hNew hNone => exact absurd hNone (hTokens path hPath)
  | case3 visited path hNew hNone => exact absurd hNone (hTokens path hPath)
  | case4 => exact .inl ⟨_, rfl⟩
  | case5 visited path hNew token hToken target hParsed ih =>
    exact ih (hClosed path _ hPath ⟨token, target, hToken, hParsed, rfl⟩)

end DesignSystem.Tree
