import DesignSystem.Proofs.Tree.Darkening
import DesignSystem.Proofs.Studio.Active
/-!
# Suggestions one after the other

A suggestion is merged into every theme of the active brand, and a dark theme is darkened after it.
`Tree/Darkening.lean` says that it makes no difference if it was darkened before as well. So two
suggestions one after the other come to one, that of the merged patch (`patchTheme_patchTheme`), and
laws of merging become laws of suggestions.

Themes are told apart by their positions, which no suggestion changes (`theme?_applySuggestion`).
-/

namespace DesignSystem.Studio

variable {s : Studio} {pos : Position}

/-- What a theme of the given mode makes of a merged tree. -/
def settle : Mode → Tree → Tree
  | .light, t => t
  | .dark, t => t.darken

theorem patchTheme_eq (patch : Tree) (t : Theme) :
    patchTheme patch t = { t with tokens := settle t.mode (t.tokens.merge patch) } := by
  obtain ⟨id, name, mode, tokens⟩ := t
  cases mode <;> rfl

/-- It makes no difference whether a tree was settled before a merge. -/
theorem settle_merge (mode : Mode) (t patch : Tree) :
    settle mode ((settle mode t).merge patch) = settle mode (t.merge patch) := by
  cases mode with
  | light => rfl
  | dark => exact Tree.darken_merge t patch

/-- **Two patches one after the other come to the merged patch.** -/
theorem patchTheme_patchTheme (p q : Tree) (t : Theme) :
    patchTheme q (patchTheme p t) = patchTheme (p.merge q) t := by
  rw [patchTheme_eq, patchTheme_eq, patchTheme_eq, settle_merge, Tree.merge_assoc]

/-- A patched dark theme is dark. -/
theorem darken_patchTheme (patch : Tree) {t : Theme} (h : t.mode = .dark) :
    (patchTheme patch t).tokens.darken = (patchTheme patch t).tokens := by
  rw [patchTheme_eq, h, settle, Tree.darken_darken]

/-- **Two suggestions one after the other come to one.** -/
theorem theme?_applySuggestion_twice (s : Studio) (now now' now'' : Instant) (p q : Tree)
    (pos : Position) : ((s.applySuggestion now p).applySuggestion now' q).theme? pos =
      (s.applySuggestion now'' (p.merge q)).theme? pos := by
  have hIndex : (s.applySuggestion now p).brandIndex = s.brandIndex := rfl
  rw [theme?_applySuggestion, theme?_applySuggestion, theme?_applySuggestion, hIndex,
    Option.map_map]
  refine congrArg (fun f => (s.theme? pos).map f) (funext fun t => ?_)
  rw [Function.comp_apply]
  split
  · exact patchTheme_patchTheme p q t
  · rfl

theorem theme?_applySuggestion_of_ne (s : Studio) (now : Instant) (patch : Tree)
    (h : pos.1 ≠ s.brandIndex) : (s.applySuggestion now patch).theme? pos = s.theme? pos := by
  rw [theme?_applySuggestion]
  cases s.theme? pos with
  | none => rfl
  | some t => rw [Option.map_some, if_neg (Ne.symm h)]

/-- After a suggestion the dark themes of the active brand are dark. -/
theorem darken_applySuggestion (now : Instant) (patch : Tree) (hBrand : pos.1 = s.brandIndex)
    {t : Theme} (hTheme : (s.applySuggestion now patch).theme? pos = some t)
    (hMode : t.mode = .dark) : t.tokens.darken = t.tokens := by
  rw [theme?_applySuggestion] at hTheme
  obtain ⟨old, -, hPatched⟩ := Option.map_eq_some_iff.mp hTheme
  rw [if_pos hBrand.symm] at hPatched
  subst hPatched
  exact darken_patchTheme patch hMode

/-- **Suggestions compose.** In every session there is an active theme, and two suggestions one after
the other leave every theme as the suggestion of the merged patch does. So a suggestion that is made
again changes no theme, and suggestions of separate patches may come in either order. Afterwards the
dark themes of the active brand are dark, and no theme of another brand has changed. -/
theorem suggestions_compose {start : Studio} (hStart : Start start) (ops : List Operation)
    (p q : Tree) :
    let s := start.run ops
    (∃ t, s.theme? s.active = some t) ∧ ∀ now now' now'' : Instant,
      let once := s.applySuggestion now p
      let twice := once.applySuggestion now' q
      (∀ pos, twice.theme? pos = (s.applySuggestion now'' (p.merge q)).theme? pos) ∧
        (∀ pos, (once.applySuggestion now' p).theme? pos = once.theme? pos) ∧
        (Tree.Separate p q → ∀ pos, twice.theme? pos =
          ((s.applySuggestion now q).applySuggestion now' p).theme? pos) ∧
        (∀ pos t, pos.1 = s.brandIndex → twice.theme? pos = some t → t.mode = .dark →
          t.tokens.darken = t.tokens) ∧
        ∀ pos, pos.1 ≠ s.brandIndex → twice.theme? pos = s.theme? pos := by
  intro s
  refine ⟨(anchored_run hStart ops).activeTheme?_eq_some, fun now now' now'' => ?_⟩
  intro once twice
  refine ⟨theme?_applySuggestion_twice s now now' now'' p q, fun pos => ?_, fun h pos => ?_,
    fun pos t hBrand hTheme hMode => ?_, fun pos h => ?_⟩
  · rw [theme?_applySuggestion_twice s now now' now p p, Tree.merge_self]
  · rw [theme?_applySuggestion_twice s now now' now p q,
      theme?_applySuggestion_twice s now now' now q p, Tree.merge_comm h]
  · exact darken_applySuggestion (s := once) now' q hBrand hTheme hMode
  · rw [theme?_applySuggestion_of_ne once now' q h, theme?_applySuggestion_of_ne s now p h]

/-- Two separate patches of a new studio. The first leaves the dark theme without a neutral scale,
the second without a place for its shadows. -/
theorem patches_of_new_studio_compose :
    let start := Studio.create ⟨"b", "l", "d"⟩ Instant.epoch
    let colors := Tree.ofBranches [("color", .group [("text", .leaf .color "black")])]
    let effects := Tree.ofBranches [("effect", .group [("shadow", .leaf .shadow "none")])]
    let twice :=
      (start.applySuggestion Instant.epoch colors).applySuggestion Instant.epoch effects
    Start start ∧ Tree.Separate colors effects ∧
      (∀ pos, twice.theme? pos =
        (start.applySuggestion Instant.epoch (colors.merge effects)).theme? pos) ∧
      (∀ pos, twice.theme? pos = ((start.applySuggestion Instant.epoch effects).applySuggestion
        Instant.epoch colors).theme? pos) ∧
      ∃ t, twice.theme? (0, 1) = some t ∧ t.mode = .dark ∧ t.tokens.darken = t.tokens ∧
        t.tokens.valueAt "color.text" = "#f8fafc" ∧ t.tokens.valueAt "effect.shadow" = "none" := by
  intro start colors effects twice
  have hStart : Start start := .create _ _
  have hSeparate : Tree.Separate colors effects := by decide +kernel
  obtain ⟨-, hAll⟩ := suggestions_compose hStart [] colors effects
  obtain ⟨hOne, -, hOrder, hDark, -⟩ := hAll Instant.epoch Instant.epoch Instant.epoch
  have hValues : ((twice.theme? (0, 1)).map fun t => (t.mode, t.tokens.valueAt "color.text",
      t.tokens.valueAt "effect.shadow")) = some (.dark, "#f8fafc", "none") := by
    decide +kernel
  obtain ⟨t, hTheme, hValue⟩ := Option.map_eq_some_iff.mp hValues
  obtain ⟨hMode, hText, hShadow⟩ : t.mode = .dark ∧ _ ∧ _ := by simpa using hValue
  exact ⟨hStart, hSeparate, hOne, hOrder hSeparate,
    t, hTheme, hMode, hDark (0, 1) t rfl hTheme hMode, hText, hShadow⟩

end DesignSystem.Studio
