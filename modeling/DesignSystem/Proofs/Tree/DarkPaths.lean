import DesignSystem.Proofs.Tree.Darkening
import DesignSystem.Proofs.Tree.Independence
import DesignSystem.Proofs.Tree.References
/-!
# The paths of the dark pass

The dark pass writes to nine paths, which are apart from each other (`apartAll_darkEdits`). So each of
its edits comes to what it would come to in the tree as it was, and `darken_writes_its_paths` says of
every tree what the pass leaves at each path: at a role an alias of its neutral step or the shade of
slate, at a shadow the heavier one, and everywhere else what was there.

An edit at a path that is apart from the nine hardly changes what the pass depends on. Its edits stay
the same unless a neutral step gets its first token (`darkValue_set`), and then only the role that
follows this step is different. `darken_set_comm_iff` says when this can be seen: whether one darkens
a tree before or after an edit makes a difference exactly if a new token at a neutral step lands and
the role that follows it can be written.
-/

namespace DesignSystem.Tree

variable {s t : Tree} {path value : String} {e : String × String}

/-! ### What the pass writes -/

theorem darkValue_of_token {step : String} (h : t.token? (neutralPath step) ≠ none) :
    t.darkValue step = "\x7b" ++ neutralPath step ++ "\x7d" :=
  if_pos (Option.isSome_iff_ne_none.mpr h)

theorem darkValue_of_none {step : String} (h : t.token? (neutralPath step) = none) :
    t.darkValue step = (Palette.slate? step).getD "" :=
  if_neg (by rw [h]; exact nofun)

theorem darkValue_congr {step : String}
    (h : s.token? (neutralPath step) = none ↔ t.token? (neutralPath step) = none) :
    s.darkValue step = t.darkValue step := by
  by_cases hNone : t.token? (neutralPath step) = none
  · rw [darkValue_of_none hNone, darkValue_of_none (h.mpr hNone)]
  · rw [darkValue_of_token hNone, darkValue_of_token fun hNo => hNone (h.mp hNo)]

theorem parse_step : ∀ e ∈ darkRoles, Token.Value.parse ("\x7b" ++ neutralPath e.2 ++ "\x7d") =
    .aliasTo (.ofDotted (neutralPath e.2)) := by
  have hPath : ∀ e ∈ darkRoles, neutralPath e.2 ≠ "" ∧
      '\x7b' ∉ (neutralPath e.2).toList ∧ '\x7d' ∉ (neutralPath e.2).toList := by decide
  exact fun e he => Token.parse_braced (hPath e he).1 (hPath e he).2.1 (hPath e he).2.2

/-- Slate has a shade at the step of every role, and that is no alias. -/
theorem slate_step : ∀ e ∈ darkRoles,
    Palette.slate? e.2 = some ((Palette.slate? e.2).getD "") ∧
      Token.Value.parse ((Palette.slate? e.2).getD "") =
        .literal ((Palette.slate? e.2).getD "") := by
  decide

theorem rolePath_mem (he : e ∈ darkRoles) : rolePath e.1 ∈ darkPaths :=
  List.mem_append_left _ (List.mem_map_of_mem he)

theorem mem_darkEdits (t : Tree) (he : e ∈ darkRoles) :
    (rolePath e.1, t.darkValue e.2) ∈ t.darkEdits :=
  List.mem_append_left _ (List.mem_map_of_mem he)

/-- **Each edit of the pass comes to what it would come to alone.** -/
theorem showsEdit_darken (h : (path, value) ∈ t.darkEdits) : t.ShowsEdit t.darken path value :=
  showsEdit_setAll t (apartAll_darkEdits t) h

theorem showsEdit_shadow (t : Tree) (h : (path, value) ∈ shadowEdits) :
    t.ShowsEdit t.darken path value :=
  showsEdit_darken (List.mem_append_right t.roleEdits h)

/-- What a role gets is an alias of its neutral step if there is a token, and slate otherwise. -/
theorem showsEdit_role (t : Tree) (he : e ∈ darkRoles) :
    ∃ text, t.ShowsEdit t.darken (rolePath e.1) text ∧
      if t.token? (neutralPath e.2) ≠ none then
        Token.Value.parse text = .aliasTo (.ofDotted (neutralPath e.2))
      else Palette.slate? e.2 = some text := by
  refine ⟨t.darkValue e.2, showsEdit_darken (mem_darkEdits t he), ?_⟩
  by_cases hStep : t.token? (neutralPath e.2) = none
  · rw [if_neg fun hThere => hThere hStep, darkValue_of_none hStep]
    exact (slate_step e he).1
  · rw [if_pos hStep, darkValue_of_token hStep]
    exact parse_step e he

/-- **What the dark pass does, and that it does nothing else.** To darken a tree again has no effect.
Each role becomes an alias of its neutral step if the tree has a token there, and the shade of slate
at that step if not, and the shadows become the dark ones; or the edit is refused, and what was there
stays. It is refused exactly if it would be in the tree as it was. All other paths show the token that
they showed, and the same node as well unless they lead on to one of the nine. -/
theorem darken_writes_its_paths (t : Tree) :
    t.darken.darken = t.darken ∧
      (∀ e ∈ darkRoles, ∃ text, t.ShowsEdit t.darken (rolePath e.1) text ∧
        if t.token? (neutralPath e.2) ≠ none then
          Token.Value.parse text = .aliasTo (.ofDotted (neutralPath e.2))
        else Palette.slate? e.2 = some text) ∧
      t.ShowsEdit t.darken "effect.shadow.sm" darkShadowSmall ∧
      t.ShowsEdit t.darken "effect.shadow.md" darkShadowMedium ∧
      (∀ before e after, t.darkEdits = before ++ e :: after →
        ((t.setAll before).set? e.1 e.2 = none ↔ t.Blocks e.1)) ∧
      (∀ path, path ∉ darkPaths → t.darken.token? path = t.token? path) ∧
      ∀ path, (∀ d ∈ darkPaths, ¬ Text.cut '.' path <+: Text.cut '.' d) →
        t.darken.node? path = t.node? path := by
  have hSmall : ("effect.shadow.sm", darkShadowSmall) ∈ shadowEdits := List.mem_cons_self
  have hMedium : ("effect.shadow.md", darkShadowMedium) ∈ shadowEdits :=
    List.mem_cons_of_mem _ List.mem_cons_self
  refine ⟨darken_darken t, fun e he => showsEdit_role t he, showsEdit_shadow t hSmall,
    showsEdit_shadow t hMedium, fun before e after hSplit => ?_,
    fun path h => token?_darken_of_ne t h, fun path h => ?_⟩
  · have hApart := apartAll_darkEdits t
    rw [hSplit] at hApart
    exact set?_inTurn_eq_none_iff t hApart
  · exact at?_setAll_of_off_path t fun e he => h e.1 (mem_darkPaths he)

/-- A tree with one neutral step, and with a group where a role should be. -/
def sparse : Tree :=
  ofBranches [("color", Branch.group [
    ("neutral", Branch.group [("950", Branch.leaf .color "#000000")]),
    ("text", Branch.group [("strong", Branch.leaf .color "#111111")])])]

/-- Its background follows the step, its surface is slate, and its text stays a group. -/
theorem sparse_darkens :
    sparse.darken.token? "color.background" = some ⟨"\x7bcolor.neutral.950\x7d", .color, none⟩ ∧
      sparse.darken.token? "color.surface" = some ⟨"#0f172a", .color, none⟩ ∧
      sparse.Blocks "color.text" ∧ sparse.darken.node? "color.text" = sparse.node? "color.text" := by
  obtain ⟨-, hRoles, -⟩ := darken_writes_its_paths sparse
  have hText : sparse.Blocks "color.text" := (set?_eq_none_iff "").mp (by decide +kernel)
  have hPath : rolePath "text" = "color.text" := by decide
  obtain ⟨text, hShows, -⟩ := hRoles ("text", "50") (by decide)
  rw [hPath] at hShows
  exact ⟨by decide +kernel, by decide +kernel, hText, hShows.2 hText⟩

/-! ### Edits elsewhere -/

/-- The path is apart from those that the dark pass writes to. -/
def Aside (path : String) : Prop :=
  ∀ d ∈ darkPaths, Apart (Text.cut '.' path) (Text.cut '.' d)

instance (path : String) : Decidable (Aside path) :=
  inferInstanceAs (Decidable (∀ d ∈ darkPaths, Apart (Text.cut '.' path) (Text.cut '.' d)))

theorem Aside.edits (h : Aside path) (t : Tree) :
    ∀ e ∈ t.darkEdits, Apart (Text.cut '.' path) (Text.cut '.' e.1) :=
  fun e he => h e.1 (mem_darkPaths he)

theorem Aside.role (h : Aside path) (he : e ∈ darkRoles) :
    Apart (Text.cut '.' path) (Text.cut '.' (rolePath e.1)) :=
  h (rolePath e.1) (rolePath_mem he)

/-- What a role gets is the same after an edit, unless its neutral step gets its first token. -/
theorem darkValue_set (t : Tree) {step : String}
    (h : path = neutralPath step → t.token? path ≠ none ∨ t.Blocks path) (value : String) :
    (t.set path value).darkValue step = t.darkValue step := by
  refine darkValue_congr ?_
  by_cases hStep : path = neutralPath step
  · subst hStep
    rcases h rfl with hThere | hBlocks
    · exact iff_of_false (exists_tokenAt_set hThere _ value) hThere
    · rw [set_of_blocks hBlocks]
  · rw [token?_set_of_ne t (Ne.symm hStep)]

/-- The pass comes to the same with other values where its edits are refused. -/
theorem setAll_darkEdits_congr {u : Tree}
    (h : ∀ e ∈ darkRoles, s.darkValue e.2 = t.darkValue e.2 ∨ u.Blocks (rolePath e.1)) :
    u.setAll s.darkEdits = u.setAll t.darkEdits := by
  have hApart : ApartAll (darkRoles.map fun e => rolePath e.1) :=
    (List.pairwise_append.mp apartAll_darkPaths).1
  have hRoles : u.setAll s.roleEdits = u.setAll t.roleEdits := setAll_map_congr hApart h
  rw [darkEdits_eq, darkEdits_eq, setAll_append, setAll_append, hRoles]

/-- If a neutral step gets its first token, the role that follows it can tell. -/
theorem darken_set_ne (hAside : Aside path) (he : e ∈ darkRoles) (hStep : path = neutralPath e.2)
    (hNone : t.token? path = none) (hLands : ¬ t.Blocks path) (hRole : ¬ t.Blocks (rolePath e.1))
    (value : String) : (t.set path value).darken ≠ t.darken.set path value := by
  intro hSame
  have hNe : rolePath e.1 ≠ path := by
    intro hEq
    exact (hAside.role he).1 (hEq ▸ List.prefix_rfl)
  have hAfter : ¬ (t.set path value).Blocks (rolePath e.1) := by
    rwa [blocks_set_iff t (hAside.role he).symm]
  have hThere : (t.set path value).token? (neutralPath e.2) ≠ none := by
    rw [← hStep, token?_set_self hLands]
    exact nofun
  -- darkened after the edit the role is an alias, darkened before it is slate
  have hAlias := (showsEdit_darken (mem_darkEdits (t.set path value) he)).1 hAfter
  have hSlate := (showsEdit_darken (mem_darkEdits t he)).1 hRole
  rw [hSame, token?_set_of_ne _ hNe, hSlate, Option.some.injEq] at hAlias
  have hParsed := congrArg Token.parsed hAlias
  rw [parsed_edited, parsed_edited, darkValue_of_token hThere, darkValue_of_none (hStep ▸ hNone),
    parse_step e he, (slate_step e he).2] at hParsed
  cases hParsed

/-- **Darkening commutes with edits elsewhere**, at paths apart from those of the pass, but for one
case: the edit puts the first token at a neutral step whose role can be written. So it does at all
paths that are no neutral step, and at those that have a token already. -/
theorem darken_set_comm_iff (t : Tree) (hAside : Aside path) (value : String) :
    (t.set path value).darken = t.darken.set path value ↔
      ¬ ∃ e ∈ darkRoles, path = neutralPath e.2 ∧ t.token? path = none ∧
        ¬ t.Blocks path ∧ ¬ t.Blocks (rolePath e.1) := by
  constructor
  · rintro hSame ⟨e, he, hStep, hNone, hLands, hRole⟩
    exact darken_set_ne hAside he hStep hNone hLands hRole value hSame
  · intro hNoNew
    have hValues : ∀ e ∈ darkRoles, (t.set path value).darkValue e.2 = t.darkValue e.2 ∨
        t.Blocks (rolePath e.1) := by
      intro e he
      by_cases hRole : t.Blocks (rolePath e.1)
      · exact .inr hRole
      · refine .inl (darkValue_set t (fun hStep => ?_) value)
        by_contra hNew
        rw [not_or, not_not] at hNew
        exact hNoNew ⟨e, he, hStep, hNew.1, hNew.2, hRole⟩
    calc (t.set path value).darken
        = (t.setAll (t.set path value).darkEdits).set path value :=
          set_setAll_comm t (hAside.edits _) value
      _ = t.darken.set path value := by rw [setAll_darkEdits_congr hValues]; rfl

/-- A new shade at the darkest neutral step comes to the same before and after darkening the built-in
tree, but not the empty one, where the background has been slate. -/
theorem darkest_step_edited : Aside "color.neutral.950" ∧
    (light.set "color.neutral.950" "#000000").darken =
      light.darken.set "color.neutral.950" "#000000" ∧
    (empty.set "color.neutral.950" "#000000").darken ≠
      empty.darken.set "color.neutral.950" "#000000" := by
  have hAside : Aside "color.neutral.950" := by decide
  refine ⟨hAside, (darken_set_comm_iff light hAside _).mpr ?_, fun hSame => ?_⟩
  · rintro ⟨e, -, -, hNone, -⟩
    have hThere : light.token? "color.neutral.950" ≠ none := by decide +kernel
    exact hThere hNone
  · refine (darken_set_comm_iff empty hAside _).mp hSame ⟨("background", "950"), by decide, rfl,
      token?_empty _, not_blocks_empty (by decide), not_blocks_empty (by decide)⟩

end DesignSystem.Tree
