import DesignSystem.Proofs.Tree.DarkPaths
import Mathlib.Data.Fintype.Card
import Mathlib.Data.Fintype.EquivFin
/-!
# Whether a dark tree conforms

The dark pass points color roles at neutral steps that have a token, and asks nothing else of them. A
step may itself be an alias, though, and if its aliases lead to a role, the dark roles can follow each
other in a circle: `Follows` says that the step of one leads to another. Of a tree that conforms,
`darken_conforms_iff` says that the dark tree conforms exactly if no role follows itself, and that
checking it finds nothing but such circles.

What the pass writes fits its place (`fits_darken`) and leads on to tokens (`Kept`). So all depends
on chains. At a role a chain goes on from the role's neutral step; the roles are few, so if none
follows itself, it comes to an end (`wellFounded_follows`, `chain_of_not_follows`). If one does, its
aliases in the dark tree lead back to it (`aims_of_transGen_follows`).
-/

namespace DesignSystem.Tree

open Schema

variable {t : Tree} {path other value : String} {token : Token}

/-! ### What the pass writes -/

/-- An edit of the dark pass writes an alias of a neutral step that has a token, or a literal that
could stand for a color. -/
theorem value_of_mem_darkEdits (h : (path, value) ∈ t.darkEdits) :
    (∃ e ∈ darkRoles, path = rolePath e.1 ∧ t.token? (neutralPath e.2) ≠ none ∧
        Token.Value.parse value = .aliasTo (.ofDotted (neutralPath e.2))) ∨
      ∃ text, Token.Value.parse value = .literal text ∧ isColor text = true := by
  have hColor : ∀ e ∈ darkRoles, isColor ((Palette.slate? e.2).getD "") = true := by decide
  have hShadow : ∀ e ∈ shadowEdits, Token.Value.parse e.2 = .literal e.2 ∧
      isColor e.2 = true := by decide
  rw [darkEdits_eq] at h
  rcases List.mem_append.mp h with hRole | hMem
  · obtain ⟨e, he, hEq⟩ := List.mem_map.mp hRole
    cases hEq
    by_cases hStep : t.token? (neutralPath e.2) = none
    · rw [darkValue_of_none hStep]
      exact .inr ⟨_, (slate_step e he).2, hColor e he⟩
    · rw [darkValue_of_token hStep]
      exact .inl ⟨e, he, rfl, hStep, parse_step e he⟩
  · exact .inr ⟨_, hShadow _ hMem⟩

theorem darkPaths_plain : ∀ path ∈ darkPaths, IsPlainPath path ∧ "" ∉ Text.cut '.' path := by
  decide

theorem darkEdits_heads (t : Tree) : ∀ e ∈ t.darkEdits, (Text.cut '.' e.1).head? ≠ some "" :=
  fun _ he => (darkPaths_plain _ (mem_darkPaths he)).1.2

theorem neutralPath_plain : ∀ e ∈ darkRoles, IsPlainPath (neutralPath e.2) := by
  decide

/-- At a path that the pass writes to, the dark tree has the edited token, unless there is none. -/
theorem token?_darken (hEdit : (path, value) ∈ t.darkEdits) :
    t.darken.token? path = some (.edited (Text.cut '.' path) value (t.token? path)) ∨
      t.token? path = none ∧ t.darken.token? path = none :=
  token?_setAll t (nodup_paths_darkEdits t) hEdit (darkPaths_plain path (mem_darkPaths hEdit)).2

theorem edited_of_token?_darken (h : path ∈ darkPaths) (hToken : t.darken.token? path = some token) :
    ∃ value, (path, value) ∈ t.darkEdits ∧
      token = .edited (Text.cut '.' path) value (t.token? path) := by
  rw [← paths_darkEdits t] at h
  obtain ⟨⟨path, value⟩, hEdit, rfl⟩ := List.mem_map.mp h
  refine ⟨value, hEdit, ?_⟩
  rcases token?_darken hEdit with hSome | ⟨-, hNone⟩
  · exact Option.some.inj (hToken.symm.trans hSome)
  · cases hToken.symm.trans hNone

/-- **What the pass writes fits its path**, if what was there did. -/
theorem fits_darken (hConforms : t.issues = []) (hPath : path ∈ darkPaths)
    (hToken : t.darken.token? path = some token) : Fits path token := by
  have hSteps : ∀ e ∈ darkRoles,
      (Token.Target.ofDotted (neutralPath e.2)).isDefault = false := by decide
  obtain ⟨value, hEdit, rfl⟩ := edited_of_token?_darken hPath hToken
  refine ⟨kindIssues_edited fun old hOld => ?_, fun text hText _ => ?_, fun q hq => ?_⟩
  · have hListed := mem_tokens_of_token? (darkPaths_plain path hPath).1 hOld
    exact ((conforms_iff.mp hConforms).2 path old hListed).1.kind
  · rw [parsed_edited] at hText
    rcases value_of_mem_darkEdits hEdit with ⟨e, -, -, -, hAlias⟩ | ⟨text', hText', hColor⟩
    · cases hAlias.symm.trans hText
    · cases hText'.symm.trans hText
      exact hColor
  · rw [parsed_edited] at hq
    rcases value_of_mem_darkEdits hEdit with ⟨e, he, -, -, hAlias⟩ | ⟨text', hText', -⟩
    · cases hAlias.symm.trans hq
      exact hSteps e he
    · cases hText'.symm.trans hq

/-- **The pass keeps what a complete tree has.** -/
theorem structureIssues_darken (h : structureIssues t = []) : structureIssues t.darken = [] := by
  have hGroups : ∀ path ∈ requiredGroups, path ∉ darkPaths := by decide
  have hDefaults : ∀ path ∈ darkPaths, path ∉ representatives := by decide
  exact structureIssues_setAll hGroups
    (fun e he hDefault => absurd hDefault (hDefaults e.1 (mem_darkPaths he))) h

/-! ### Where the roles aim -/

/-- Among the paths that the pass writes to, only roles are aliases, and of their neutral steps. -/
theorem aims_of_mem_darkPaths (h : path ∈ darkPaths) (hAims : t.darken.Aims path other) :
    ∃ e ∈ darkRoles, path = rolePath e.1 ∧ t.token? (neutralPath e.2) ≠ none ∧
      other = neutralPath e.2 := by
  obtain ⟨token, q, hToken, hParsed, rfl⟩ := hAims
  obtain ⟨value, hEdit, rfl⟩ := edited_of_token?_darken h hToken
  rw [parsed_edited] at hParsed
  rcases value_of_mem_darkEdits hEdit with ⟨e, he, hPath, hStep, hAlias⟩ | ⟨text, hText, -⟩
  · cases hAlias.symm.trans hParsed
    exact ⟨e, he, hPath, hStep, Token.Target.dotted_ofDotted _⟩
  · cases hText.symm.trans hParsed

/-- A role that has a token is an alias of its neutral step, if that has one, too. -/
theorem aims_rolePath {e : String × String} (he : e ∈ darkRoles)
    (hStep : t.token? (neutralPath e.2) ≠ none) (hRole : t.token? (rolePath e.1) ≠ none) :
    t.darken.Aims (rolePath e.1) (neutralPath e.2) := by
  rcases token?_darken (mem_darkEdits t he) with hSome | ⟨hNone, -⟩
  · refine ⟨_, .ofDotted (neutralPath e.2), hSome, ?_, Token.Target.dotted_ofDotted _⟩
    rw [parsed_edited, darkValue_of_token hStep]
    exact parse_step e he
  · exact absurd hNone hRole

/-- Elsewhere aliases aim where they did. -/
theorem aims_darken_iff (h : path ∉ darkPaths) : t.darken.Aims path other ↔ t.Aims path other :=
  aims_setAll_iff h

/-! ### Which roles follow each other -/

/-- The aliases of the neutral step that the role at a path gets lead to the other path, without
passing one that the pass writes to. -/
def Follows (t : Tree) (path other : String) : Prop :=
  ∃ e ∈ darkRoles, path = rolePath e.1 ∧
    Relation.TransGen (t.Passes darkPaths) (neutralPath e.2) other

/-- On finitely many points, a relation without circles comes to an end. -/
theorem wellFounded_of_acyclic {α : Type} [Finite α] {r : α → α → Prop}
    (h : ∀ a, ¬ Relation.TransGen r a a) : WellFounded fun b a => r a b := by
  have hTrans : IsTrans α fun b a => Relation.TransGen r a b :=
    ⟨fun _ _ _ hFirst hSecond => hSecond.trans hFirst⟩
  have hIrrefl : Std.Irrefl fun b a => Relation.TransGen r a b := ⟨h⟩
  exact Subrelation.wf (fun hStep => .single hStep)
    (Finite.wellFounded_of_trans_of_irrefl fun b a => Relation.TransGen r a b)

/-- If no role follows itself, following comes to an end. -/
theorem wellFounded_follows (h : ∀ path, ¬ Relation.TransGen t.Follows path path) :
    WellFounded fun other path : {path // path ∈ darkPaths} => t.Follows path other :=
  wellFounded_of_acyclic fun path hCycle =>
    h path (Relation.TransGen.lift Subtype.val (fun _ _ hFollows => hFollows) _ _ hCycle)

/-- **If no role follows itself, a chain leads to a literal from wherever the pass has written.** -/
theorem chain_of_not_follows (hConforms : t.issues = [])
    (h : ∀ path, ¬ Relation.TransGen t.Follows path path) (hPath : path ∈ darkPaths)
    (hToken : t.darken.token? path ≠ none) : ∃ targets text, t.darken.Chain path targets text := by
  refine (wellFounded_follows h).induction
    (C := fun p => t.darken.token? p.1 ≠ none → ∃ targets text, t.darken.Chain p.1 targets text)
    ⟨path, hPath⟩ ?_ hToken
  rintro ⟨path, hPath⟩ ih hThere
  obtain ⟨token, hToken⟩ := Option.ne_none_iff_exists'.mp hThere
  cases hParsed : token.parsed with
  | literal text => exact ⟨[], text, .literal hToken hParsed⟩
  | aliasTo q =>
    obtain ⟨e, he, rfl, hStep, hTarget⟩ :=
      aims_of_mem_darkPaths hPath ⟨token, q, hToken, hParsed, rfl⟩
    obtain ⟨targets, text, hChain⟩ := chain_of_conforms hConforms (neutralPath_plain e he) hStep
    have hGoesOn : ∀ other ∈ darkPaths,
        Relation.ReflTransGen (t.Passes darkPaths) (neutralPath e.2) other →
        t.token? other ≠ none → ∃ targets text, t.darken.Chain other targets text := by
      intro other hOther hReach hOld
      -- the step itself is not written to, so the other path lies ahead of it
      have hAhead : Relation.TransGen (t.Passes darkPaths) (neutralPath e.2) other :=
        (Relation.reflTransGen_iff_eq_or_transGen.mp hReach).resolve_left fun hEq =>
          neutralPath_not_mem e he (hEq ▸ hOther)
      exact ih ⟨other, hOther⟩ ⟨e, he, rfl, hAhead⟩ (exists_token_setAll hOld t.darkEdits)
    obtain ⟨targets', text', hNext⟩ : ∃ targets text, t.darken.Chain (neutralPath e.2) targets text :=
      chain_setAll hChain hGoesOn
    exact ⟨q :: targets', text', .step hToken hParsed (hTarget ▸ hNext)⟩

/-- What is followed has a token, since no chain of the tree breaks off. -/
theorem token_of_follows (hConforms : t.issues = []) (h : t.Follows path other) :
    t.token? other ≠ none := by
  obtain ⟨e, he, -, hReach⟩ := h
  have hAims : Relation.TransGen t.Aims (neutralPath e.2) other :=
    Relation.TransGen.mono (fun _ _ hPasses => hPasses.2) _ _ hReach
  obtain ⟨next, ⟨step, -, hStep, -⟩, -⟩ := Relation.TransGen.head'_iff.mp hAims
  obtain ⟨targets, text, hChain⟩ :=
    chain_of_conforms hConforms (neutralPath_plain e he) (by rw [hStep]; exact nofun)
  obtain ⟨rest, hRest, -⟩ := hChain.of_transGen hAims
  obtain ⟨last, hLast⟩ := hRest.exists_token
  rw [hLast]
  exact nofun

/-- In the dark tree the aliases of a role lead to what it follows. -/
theorem aims_of_follows (h : t.Follows path other) (hThere : t.token? path ≠ none) :
    Relation.TransGen t.darken.Aims path other := by
  obtain ⟨e, he, rfl, hReach⟩ := h
  obtain ⟨next, ⟨-, step, q, hStep, -⟩, -⟩ := Relation.TransGen.head'_iff.mp hReach
  have hFirst := aims_rolePath he (by rw [hStep]; exact nofun) hThere
  have hLater : Relation.TransGen t.darken.Aims (neutralPath e.2) other :=
    Relation.TransGen.mono (fun _ _ hPasses => (aims_darken_iff hPasses.1).mpr hPasses.2) _ _ hReach
  exact .head hFirst hLater

theorem aims_of_transGen_follows (hConforms : t.issues = [])
    (h : Relation.TransGen t.Follows path other) (hThere : t.token? path ≠ none) :
    Relation.TransGen t.darken.Aims path other := by
  induction h with
  | single hFollows => exact aims_of_follows hFollows hThere
  | tail hFirst hFollows ih =>
    obtain ⟨before, -, hBefore⟩ := Relation.TransGen.tail'_iff.mp hFirst
    exact ih.trans (aims_of_follows hFollows (token_of_follows hConforms hBefore))

/-! ### Circles and nothing else -/

/-- A path where the dark tree has a token whose aliases lead on to tokens: a chain has led from it
before, or the pass has written to it. -/
def Kept (t : Tree) (path : String) : Prop :=
  (∃ targets text, t.Chain path targets text) ∨ path ∈ darkPaths ∧ t.darken.token? path ≠ none

theorem Kept.exists_token (h : t.Kept path) : t.darken.token? path ≠ none := by
  rcases h with ⟨targets, text, hChain⟩ | ⟨-, hThere⟩
  · obtain ⟨old, hOld⟩ := hChain.exists_token
    exact exists_token_setAll (by rw [hOld]; exact nofun) t.darkEdits
  · exact hThere

theorem Kept.aims (hConforms : t.issues = []) (h : t.Kept path) (hAims : t.darken.Aims path other) :
    t.Kept other := by
  by_cases hDark : path ∈ darkPaths
  · obtain ⟨e, he, -, hStep, rfl⟩ := aims_of_mem_darkPaths hDark hAims
    exact .inl (chain_of_conforms hConforms (neutralPath_plain e he) hStep)
  · rcases h with ⟨targets, text, hChain⟩ | ⟨hMem, -⟩
    · obtain ⟨rest, hRest, -⟩ := hChain.of_aims ((aims_darken_iff hDark).mp hAims)
      exact .inl ⟨rest, text, hRest⟩
    · exact absurd hMem hDark

/-- **Checking the dark tree finds nothing wrong but circles of aliases.** -/
theorem issues_darken (hConforms : t.issues = []) {i : Issue} (h : i ∈ t.darken.issues) :
    ∃ cycle, i.problem = .brokenAlias (.cycle cycle) := by
  obtain ⟨hStructure, hTokens⟩ := conforms_iff.mp hConforms
  rw [issues, structureIssues_darken hStructure, List.nil_append] at h
  obtain ⟨⟨path, token⟩, hListed, hIssue⟩ := List.mem_flatMap.mp h
  have hCircle : t.Kept path → Fits path token →
      ∃ cycle, i.problem = .brokenAlias (.cycle cycle) := by
    intro hKept hFits
    obtain ⟨q, error, -, hError, rfl⟩ := issue_of_fits hFits hIssue
    rcases follow_of_closed (fun _ hKept => hKept.exists_token)
      (fun _ _ hKept => hKept.aims hConforms) hKept with ⟨text, hText⟩ | ⟨cycle, hCycle⟩
    · cases hText.symm.trans hError
    · cases hCycle.symm.trans hError
      exact ⟨cycle, rfl⟩
  rcases mem_tokens_setAll (darkEdits_heads t) hListed with ⟨hDark, -, hToken⟩ | hOld
  · exact hCircle (.inr ⟨hDark, hToken ▸ Option.some_ne_none _⟩) (fits_darken hConforms hDark hToken)
  · obtain ⟨hFits, hResolves⟩ := hTokens path token hOld
    obtain ⟨q, error, hAlias, -, -⟩ := issue_of_fits hFits hIssue
    obtain ⟨text, hText⟩ := hResolves q hAlias
    obtain ⟨targets, hChain⟩ := resolve_eq_ok_iff.mp hText
    exact hCircle (.inl ⟨targets, text, hChain⟩) hFits

/-! ### The statement -/

/-- A role that follows itself has a token, and its chain in the dark tree would be endless. -/
theorem not_follows_of_conforms (hConforms : t.issues = []) (hDark : t.darken.issues = []) :
    ¬ Relation.TransGen t.Follows path path := by
  intro hCycle
  obtain ⟨before, -, hBefore⟩ := Relation.TransGen.tail'_iff.mp hCycle
  have hThere := token_of_follows hConforms hBefore
  obtain ⟨after, ⟨e, he, rfl, -⟩, -⟩ := Relation.TransGen.head'_iff.mp hCycle
  obtain ⟨targets, text, hChain⟩ :=
    chain_of_conforms hDark (darkPaths_plain _ (rolePath_mem he)).1
      (exists_token_setAll hThere t.darkEdits)
  exact hChain.not_transGen (aims_of_transGen_follows hConforms hCycle hThere)

theorem conforms_of_not_follows (hConforms : t.issues = [])
    (h : ∀ path, ¬ Relation.TransGen t.Follows path path) : t.darken.issues = [] :=
  conforms_setAll hConforms (darkEdits_heads t)
    (structureIssues_darken (conforms_iff.mp hConforms).1)
    (fun _ hPath _ _ hToken => fits_darken hConforms hPath hToken)
    (fun _ hPath hThere => chain_of_not_follows hConforms h hPath hThere)

/-- **Which dark trees conform.** Where a tree conforms, the dark tree does so exactly if no role
follows itself by way of neutral steps; and nothing else can be wrong with it than aliases that lead
in a circle. -/
theorem darken_conforms_iff {t : Tree} (hConforms : t.issues = []) :
    (t.darken.issues = [] ↔ ∀ path, ¬ Relation.TransGen t.Follows path path) ∧
      ∀ i ∈ t.darken.issues, ∃ cycle, i.problem = .brokenAlias (.cycle cycle) :=
  ⟨⟨fun hDark _ => not_follows_of_conforms hConforms hDark, conforms_of_not_follows hConforms⟩,
    fun _ hIssue => issues_darken hConforms hIssue⟩

/-- A tree without issues whose darkest neutral step is an alias of the background. -/
def circling : Tree :=
  accented.setAll [("color.neutral.950", "\x7bcolor.background\x7d")]

theorem circling_step : circling.token? "color.neutral.950" =
    some ⟨"\x7bcolor.background\x7d", .color, none⟩ := by
  decide +kernel

theorem circling_issues : circling.issues = [] := by
  have hParsed : (⟨"\x7bcolor.background\x7d", .color, none⟩ : Token).parsed =
      .aliasTo (.ofDotted "color.background") := by decide
  have hGroups : ∀ path ∈ requiredGroups, path ∉ ["color.neutral.950"] := by decide
  have hDefault : "color.neutral.950" ∉ representatives := by decide
  have hBackground : circling.token? (Token.Target.ofDotted "color.background").dotted =
      some ⟨"white", .color, none⟩ := by decide +kernel
  have hStructure : structureIssues circling = [] :=
    structureIssues_setAll hGroups (List.forall_mem_singleton.mpr fun h => absurd h hDefault)
      (conforms_iff.mp accented_issues).1
  refine conforms_setAll accented_issues (List.forall_mem_singleton.mpr (by decide)) hStructure
    (List.forall_mem_singleton.mpr fun _ token hToken => ?_)
    (List.forall_mem_singleton.mpr fun _ => ?_)
  · cases circling_step.symm.trans hToken
    refine ⟨by decide, fun text hText => ?_, fun q hq => ?_⟩
    · cases hParsed.symm.trans hText
    · cases hParsed.symm.trans hq
      decide
  · exact ⟨_, "white", .step circling_step hParsed (.literal hBackground (by decide))⟩

/-- Its dark background follows itself by way of that step. -/
theorem circling_follows : circling.Follows "color.background" "color.background" := by
  have hAims : circling.Aims "color.neutral.950" "color.background" :=
    ⟨_, .ofDotted "color.background", circling_step, by decide, Token.Target.dotted_ofDotted _⟩
  have hNeutral : "color.neutral.950" ∉ darkPaths := by decide
  exact ⟨("background", "950"), List.mem_cons_self, rfl, .single ⟨hNeutral, hAims⟩⟩

theorem circling_darkens_to_circle :
    circling.issues = [] ∧ circling.darken.issues ≠ [] ∧
      ∀ i ∈ circling.darken.issues, ∃ cycle, i.problem = .brokenAlias (.cycle cycle) := by
  obtain ⟨hIff, hCircles⟩ := darken_conforms_iff circling_issues
  exact ⟨circling_issues, fun hNone => hIff.mp hNone _ (.single circling_follows), hCircles⟩

/-- A tree that conforms may have a dark tree that does not. -/
theorem conforming_tree_darkens_to_circle :
    ¬ ∀ t : Tree, t.issues = [] → t.darken.issues = [] := by
  intro hAll
  have hDark := hAll circling circling_issues
  exact not_follows_of_conforms circling_issues hDark (.single circling_follows)

end DesignSystem.Tree
