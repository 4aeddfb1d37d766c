import DesignSystem.Proofs.Tree.Chain
import Mathlib.Data.List.Chain
/-!
# What resolving an alias finds

Aliases lead from a path along a way (`Way`), of which each path aims at the next one. A way can end
at a literal, in front of a path without a token, or go on for ever (`Endless`). `follow` tells the
three apart by what it has passed, and this file says that it tells them right:

* `ends_follow`: whatever following comes to is what the way from the path shows;
* `follow_of_way`: following takes every way as long as no path comes a second time, so it comes to
  everything that a way can show.

A token aims at one path only, so a way that halts is the only one that does (`Way.eq_of_halts`),
and no path comes twice on it (`Way.nodup`). This is why a literal is never taken for a cycle.

The rounds of following are counted by `followWithin`, which gives up after a number of them. One
round more than there are tokens is enough (`followWithin_addresses`), since every round but the last
one passes a token that was not passed before.
-/

namespace DesignSystem.Tree

variable {t : Tree} {path last next : String} {way visited : List String}

/-! ### Ways -/

/-- The paths of `way` lead from `path` to `last`, each aiming at the next one. -/
structure Way (t : Tree) (path last : String) (way : List String) : Prop where
  first : way.head? = some path
  last : way.getLast? = some last
  linked : way.IsChain t.Aims

/-- Nothing leads on from the path. -/
def Halts (t : Tree) (path : String) : Prop :=
  ∀ next, ¬ t.Aims path next

/-- Aliases lead on and on from the path. -/
def Endless (t : Tree) (path : String) : Prop :=
  ∃ stages : Nat → String, stages 0 = path ∧ ∀ i, t.Aims (stages i) (stages (i + 1))

/-- A token aims at one path only. -/
theorem Aims.unique {other : String} (h : t.Aims path next) (h' : t.Aims path other) :
    next = other := by
  obtain ⟨token, target, hToken, hParsed, rfl⟩ := h
  obtain ⟨token', target', hToken', hParsed', rfl⟩ := h'
  cases hToken.symm.trans hToken'
  cases hParsed.symm.trans hParsed'
  rfl

theorem halts_of_literal {token : Token} {text : String} (hToken : t.token? path = some token)
    (hParsed : token.parsed = .literal text) : t.Halts path := by
  rintro next ⟨token', target, hToken', hParsed', -⟩
  cases hToken.symm.trans hToken'
  cases hParsed.symm.trans hParsed'

theorem halts_of_none (hNone : t.token? path = none) : t.Halts path := by
  rintro next ⟨token, target, hToken, -, -⟩
  cases hNone.symm.trans hToken

theorem way_singleton (t : Tree) (path : String) : t.Way path path [path] :=
  ⟨rfl, rfl, List.isChain_singleton path⟩

/-- A way goes on where its last path aims. -/
theorem Way.concat (h : t.Way path last way) (hAims : t.Aims last next) :
    t.Way path next (way ++ [next]) := by
  refine ⟨?_, List.getLast?_concat, ?_⟩
  · rw [List.head?_append, h.first, Option.some_or]
  · refine List.isChain_append.mpr ⟨h.linked, List.isChain_singleton next, ?_⟩
    intro x hx y hy
    rw [h.last] at hx
    cases hx
    cases hy
    exact hAims

theorem Way.tail {second : String} {rest : List String}
    (h : t.Way path last (path :: second :: rest)) : t.Way second last (second :: rest) := by
  obtain ⟨-, hLast, hLinked⟩ := h
  rw [List.getLast?_cons_cons] at hLast
  exact ⟨rfl, hLast, (List.isChain_cons_cons.mp hLinked).2⟩

theorem Way.aims {second : String} {rest : List String}
    (h : t.Way path last (path :: second :: rest)) : t.Aims path second :=
  (List.isChain_cons_cons.mp h.linked).1

theorem Way.exists_cons (h : t.Way path last way) : ∃ rest, way = path :: rest :=
  List.head?_eq_some_iff.mp h.first

/-- **There is only one way to a halt.** -/
theorem Way.eq_of_halts {last' : String} {way' : List String} (h : t.Way path last way)
    (hHalts : t.Halts last) (h' : t.Way path last' way') (hHalts' : t.Halts last') :
    way = way' := by
  induction way generalizing path way' with
  | nil => cases h.first
  | cons head rest ih =>
    cases h.first
    obtain ⟨rest', rfl⟩ := h'.exists_cons
    cases rest with
    | nil =>
      cases h.last
      cases rest' with
      | nil => rfl
      | cons second' rest' => exact absurd h'.aims (hHalts second')
    | cons second rest =>
      cases rest' with
      | nil =>
        cases h'.last
        exact absurd h.aims (hHalts' second)
      | cons second' rest' =>
        cases h.aims.unique h'.aims
        rw [ih h.tail h'.tail]

/-- **No path comes twice on a way to a halt**: the way from there would be two ways. -/
theorem Way.nodup (h : t.Way path last way) (hHalts : t.Halts last) : way.Nodup := by
  induction way generalizing path with
  | nil => exact List.nodup_nil
  | cons head rest ih =>
    cases h.first
    cases rest with
    | nil => simp
    | cons second rest =>
      refine List.nodup_cons.mpr ⟨fun hMem => ?_, ih h.tail⟩
      obtain ⟨before, after, hSplit⟩ := List.append_of_mem hMem
      have hSuffix : t.Way head last (head :: after) := by
        obtain ⟨-, hLast, hLinked⟩ := h.tail
        rw [hSplit] at hLast hLinked
        rw [List.getLast?_append_of_ne_nil _ (List.cons_ne_nil head after)] at hLast
        exact ⟨rfl, hLast, (List.isChain_append.mp hLinked).2.1⟩
      have hTwice := h.eq_of_halts hHalts hSuffix hHalts
      have hLength := congrArg List.length (List.cons.inj hTwice).2
      rw [hSplit] at hLength
      simp only [List.length_append, List.length_cons] at hLength
      omega

/-! ### Endless ways -/

theorem Endless.tail (h : t.Endless path) (hAims : t.Aims path next) : t.Endless next := by
  obtain ⟨stages, rfl, hStages⟩ := h
  exact ⟨fun i => stages (i + 1), (hStages 0).unique hAims, fun i => hStages (i + 1)⟩

/-- Nothing that halts is endless. -/
theorem Way.not_endless (h : t.Way path last way) (hHalts : t.Halts last) : ¬ t.Endless path := by
  intro hEndless
  induction way generalizing path with
  | nil => cases h.first
  | cons head rest ih =>
    cases h.first
    cases rest with
    | nil =>
      cases h.last
      obtain ⟨stages, rfl, hStages⟩ := hEndless
      exact hHalts _ (hStages 0)
    | cons second rest => exact ih h.tail (hEndless.tail h.aims)

/-- Paths that lead on among themselves lead on for ever. -/
theorem endless_of_closed {p : String → Prop} (hPath : p path)
    (hClosed : ∀ q, p q → ∃ next, t.Aims q next ∧ p next) : t.Endless path := by
  choose! onward hAims hOnward using hClosed
  have hStages : ∀ i, p (onward^[i] path) := by
    intro i
    induction i with
    | zero => exact hPath
    | succ i ih =>
      rw [Function.iterate_succ_apply']
      exact hOnward _ ih
  refine ⟨fun i => onward^[i] path, rfl, fun i => ?_⟩
  have hNext : onward^[i + 1] path = onward (onward^[i] path) :=
    Function.iterate_succ_apply' onward i path
  simp only [hNext]
  exact hAims _ (hStages i)

theorem aims_of_mem_dropLast (hLinked : way.IsChain t.Aims) (hMem : path ∈ way.dropLast) :
    ∃ next ∈ way, t.Aims path next := by
  induction way with
  | nil => cases hMem
  | cons head rest ih =>
    cases rest with
    | nil => cases hMem
    | cons second rest =>
      obtain ⟨hHead, hRest⟩ := List.isChain_cons_cons.mp hLinked
      rw [List.dropLast_cons_cons] at hMem
      rcases List.mem_cons.mp hMem with rfl | hMem
      · exact ⟨second, List.mem_cons_of_mem _ List.mem_cons_self, hHead⟩
      · obtain ⟨next, hNext, hAims⟩ := ih hRest hMem
        exact ⟨next, List.mem_cons_of_mem _ hNext, hAims⟩

/-- A way that comes back to one of its paths goes on for ever. -/
theorem Way.endless (h : t.Way path last way) (hBack : last ∈ way.dropLast) :
    t.Endless path := by
  refine endless_of_closed (p := (· ∈ way)) (List.mem_of_mem_head? h.first) fun q hq => ?_
  have hInner : q ∈ way.dropLast := by
    obtain ⟨hNe, hLast⟩ := List.getLast?_eq_some_iff.mp h.last
    rw [hLast] at hq
    rcases List.mem_append.mp hq with hq | hq
    · rw [hLast, List.dropLast_concat]
      exact hq
    · rw [List.mem_singleton.mp hq]
      exact hBack
  obtain ⟨next, hNext, hAims⟩ := aims_of_mem_dropLast h.linked hInner
  exact ⟨next, hAims, hNext⟩

/-! ### What following comes to -/

/-- The way from a path shows the result. -/
def Ends (t : Tree) (path : String) : Except AliasError String → Prop
  | .ok text => ∃ way last token, t.Way path last way ∧ t.token? last = some token ∧
      token.parsed = .literal text
  | .error (.missing p) => p = path ∧ t.token? path = none
  | .error (.unresolved source target) => ∃ way, t.Way path source way ∧ t.Aims source target ∧
      t.token? target = none
  | .error (.cycle cycle) => ∃ last, t.Way path last cycle ∧ cycle.dropLast.Nodup ∧
      last ∈ cycle.dropLast

/-- Following passes no path twice and stays on the way, so it comes to what the way shows. -/
theorem ends_follow (hWay : t.Way path last (visited ++ [last])) (hNodup : visited.Nodup) :
    t.Ends path (t.follow visited last) := by
  fun_induction t.follow visited last with
  | case1 visited last hSeen =>
    refine ⟨last, hWay, ?_, ?_⟩
    · rwa [List.dropLast_concat]
    · rwa [List.dropLast_concat]
  | case2 visited last hNew hNone hStart =>
    rw [List.getLast?_eq_none_iff.mp hStart] at hWay
    cases hWay.first
    exact ⟨rfl, hNone⟩
  | case3 visited last hNew hNone source hSource =>
    obtain ⟨hFirst, -, hLinked⟩ := hWay
    obtain ⟨hVisited, -, hStep⟩ := List.isChain_append.mp hLinked
    have hHead : visited.head? = some path := by
      obtain ⟨before, rfl⟩ := List.getLast?_eq_some_iff.mp hSource
      rwa [List.head?_append_of_ne_nil _ (by simp)] at hFirst
    exact ⟨visited, ⟨hHead, hSource, hVisited⟩, hStep source hSource last rfl, hNone⟩
  | case4 visited last hNew token hToken text hParsed =>
    exact ⟨visited ++ [last], last, token, hWay, hToken, hParsed⟩
  | case5 visited last hNew token hToken target hParsed ih =>
    refine ih (hWay.concat ⟨token, target, hToken, hParsed, rfl⟩) ?_
    rw [List.nodup_append]
    refine ⟨hNodup, by simp, ?_⟩
    rintro x hx y hy rfl
    exact hNew (List.mem_singleton.mp hy ▸ hx)

/-- **Following takes a way to its end**, if no path but the last one comes twice. -/
theorem follow_of_way {rest : List String} (h : t.Way path last (path :: rest))
    (hNodup : (visited ++ (path :: rest).dropLast).Nodup) :
    t.follow visited path = t.follow (visited ++ (path :: rest).dropLast) last := by
  induction rest generalizing path visited with
  | nil =>
    have hLast : path = last := Option.some.inj h.last
    rw [List.dropLast_singleton, List.append_nil, hLast]
  | cons second rest ih =>
    rw [List.dropLast_cons_cons, List.append_cons] at hNodup ⊢
    obtain ⟨token, target, hToken, hParsed, rfl⟩ := h.aims
    have hNew : path ∉ visited := by
      have hHere := hNodup.sublist (List.sublist_append_left (visited ++ [path]) _)
      intro hMem
      exact (List.nodup_append.mp hHere).2.2 path hMem path List.mem_cons_self rfl
    rw [follow_of_alias hNew hToken hParsed]
    exact ih h.tail hNodup

theorem resolve_of_way (h : t.Way path last way) (hNodup : way.dropLast.Nodup) :
    t.resolve path = t.follow way.dropLast last := by
  obtain ⟨rest, rfl⟩ := h.exists_cons
  exact follow_of_way h hNodup

/-- A way to a halt is followed to its end, which is not passed before. -/
theorem resolve_of_halts (h : t.Way path last way) (hHalts : t.Halts last) :
    t.resolve path = t.follow way.dropLast last ∧ last ∉ way.dropLast := by
  have hNodup := h.nodup hHalts
  obtain ⟨before, rfl⟩ := List.getLast?_eq_some_iff.mp h.last
  rw [resolve_of_way h (hNodup.sublist (List.dropLast_sublist _)), List.dropLast_concat]
  refine ⟨rfl, fun hMem => ?_⟩
  exact (List.nodup_append.mp hNodup).2.2 last hMem last List.mem_cons_self rfl

theorem follow_of_mem (hSeen : last ∈ visited) :
    t.follow visited last = .error (.cycle (visited ++ [last])) := by
  rw [follow, dif_pos hSeen]

theorem follow_of_none (hNew : last ∉ visited) (hNone : t.token? last = none) :
    t.follow visited last = match visited.getLast? with
      | none => .error (.missing last)
      | some source => .error (.unresolved source last) := by
  rw [follow, dif_neg hNew]
  split
  · rfl
  · rename_i token hToken
    cases hNone.symm.trans hToken

/-- **Resolving comes to a result exactly if the way from the path shows it.** -/
theorem resolve_eq_iff {result : Except AliasError String} :
    t.resolve path = result ↔ t.Ends path result := by
  constructor
  · rintro rfl
    exact ends_follow (way_singleton t path) List.nodup_nil
  · intro hEnds
    match result, hEnds with
    | .ok text, ⟨way, last, token, hWay, hToken, hParsed⟩ =>
      obtain ⟨hFollow, hNew⟩ := resolve_of_halts hWay (halts_of_literal hToken hParsed)
      rw [hFollow, follow_of_literal hNew hToken hParsed]
    | .error (.missing p), ⟨hPath, hNone⟩ =>
      rw [hPath]
      exact follow_of_none List.not_mem_nil hNone
    | .error (.unresolved source target), ⟨way, hWay, hAims, hNone⟩ =>
      obtain ⟨hFollow, hNew⟩ := resolve_of_halts (hWay.concat hAims) (halts_of_none hNone)
      rw [List.dropLast_concat] at hFollow hNew
      rw [hFollow, follow_of_none hNew hNone, hWay.last]
    | .error (.cycle cycle), ⟨last, hWay, hNodup, hBack⟩ =>
      obtain ⟨before, rfl⟩ := List.getLast?_eq_some_iff.mp hWay.last
      rw [List.dropLast_concat] at hBack
      rw [resolve_of_way hWay hNodup, List.dropLast_concat, follow_of_mem hBack]

/-- **A cycle is what is found where aliases lead on for ever.** -/
theorem resolve_eq_cycle_iff_endless :
    (∃ cycle, t.resolve path = .error (.cycle cycle)) ↔ t.Endless path := by
  constructor
  · rintro ⟨cycle, hCycle⟩
    obtain ⟨last, hWay, -, hBack⟩ := resolve_eq_iff.mp hCycle
    exact hWay.endless hBack
  · intro hEndless
    have hEnds := resolve_eq_iff.mp (Eq.refl (t.resolve path))
    generalize t.resolve path = result at hEnds ⊢
    match result, hEnds with
    | .ok text, ⟨way, last, token, hWay, hToken, hParsed⟩ =>
      exact absurd hEndless (hWay.not_endless (halts_of_literal hToken hParsed))
    | .error (.missing p), ⟨hPath, hNone⟩ =>
      exact absurd hEndless ((way_singleton t path).not_endless (halts_of_none hNone))
    | .error (.unresolved source target), ⟨way, hWay, hAims, hNone⟩ =>
      exact absurd hEndless ((hWay.concat hAims).not_endless (halts_of_none hNone))
    | .error (.cycle cycle), _ => exact ⟨cycle, rfl⟩

/-! ### Rounds -/

/-- One round of following: what it comes to, or the path at which the next round stands. -/
def round (t : Tree) (visited : List String) (current : String) :
    Except AliasError String ⊕ String :=
  if current ∈ visited then .inl (.error (.cycle (visited ++ [current])))
  else match t.token? current with
    | none => match visited.getLast? with
      | none => .inl (.error (.missing current))
      | some source => .inl (.error (.unresolved source current))
    | some token => match token.parsed with
      | .literal text => .inl (.ok text)
      | .aliasTo target => .inr target.dotted

/-- What following comes to within a number of rounds, if they are enough. -/
def followWithin (t : Tree) : Nat → List String → String → Option (Except AliasError String)
  | 0, _, _ => none
  | rounds + 1, visited, current => match t.round visited current with
    | .inl result => some result
    | .inr next => t.followWithin rounds (visited ++ [current]) next

/-- **Every round but the last one passes a new token**, so there is one round more at most than
there are tokens that were not passed. -/
theorem followWithin_of_unvisited {rounds : Nat}
    (h : (t.unvisited visited).length < rounds) :
    t.followWithin rounds visited last = some (t.follow visited last) := by
  induction rounds generalizing visited last with
  | zero => omega
  | succ rounds ih =>
    rw [followWithin]
    by_cases hSeen : last ∈ visited
    · simp only [round, if_pos hSeen, follow_of_mem hSeen]
    · cases hToken : t.token? last with
      | none =>
        simp only [round, if_neg hSeen, hToken, follow_of_none hSeen hToken]
        cases visited.getLast? <;> rfl
      | some token =>
        cases hParsed : token.parsed with
        | literal text =>
          simp only [round, if_neg hSeen, hToken, hParsed, follow_of_literal hSeen hToken hParsed]
        | aliasTo target =>
          have hLess := unvisited_length_lt hSeen (mem_addresses_of_token? hToken)
          simp only [round, if_neg hSeen, hToken, hParsed, follow_of_alias hSeen hToken hParsed]
          exact ih (by omega)

theorem followWithin_addresses (t : Tree) (path : String) :
    t.followWithin (t.asNode.tokenPaths.length + 1) [] path = some (t.resolve path) := by
  refine followWithin_of_unvisited ?_
  have hAll : (t.unvisited []).length ≤ t.addresses.length := List.length_filter_le ..
  have hPaths : t.addresses.length = t.asNode.tokenPaths.length := List.length_map ..
  omega

/-! ### The statement -/

/-- **Resolving an alias is exact and total.** It ends within one round more than there are tokens
in the tree. It finds a literal exactly if a way leads to it, misses the path exactly if there is no
token, and an alias is unresolved exactly if a way leads to it and on to where there is no token. A
cycle is the way to where it comes back to itself for the first time, and there is one exactly if
the aliases lead on for ever. -/
theorem resolution_exact_and_total (t : Tree) (path : String) :
    t.followWithin (t.asNode.tokenPaths.length + 1) [] path = some (t.resolve path) ∧
      (∀ text, t.resolve path = .ok text ↔ ∃ way last token, t.Way path last way ∧
        t.token? last = some token ∧ token.parsed = .literal text) ∧
      (∀ p, t.resolve path = .error (.missing p) ↔ p = path ∧ t.token? path = none) ∧
      (∀ source target, t.resolve path = .error (.unresolved source target) ↔
        ∃ way, t.Way path source way ∧ t.Aims source target ∧ t.token? target = none) ∧
      (∀ cycle, t.resolve path = .error (.cycle cycle) ↔
        ∃ last, t.Way path last cycle ∧ cycle.dropLast.Nodup ∧ last ∈ cycle.dropLast) ∧
      ((∃ cycle, t.resolve path = .error (.cycle cycle)) ↔ t.Endless path) :=
  ⟨followWithin_addresses t path, fun _ => resolve_eq_iff, fun _ => resolve_eq_iff,
    fun _ _ => resolve_eq_iff, fun _ => resolve_eq_iff, resolve_eq_cycle_iff_endless⟩

end DesignSystem.Tree
