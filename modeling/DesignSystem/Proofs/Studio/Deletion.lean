import DesignSystem.Proofs.Studio.Recall
/-!
# Deleting something else

A session edits one theme of one brand, and both are known by their positions. A deletion that
concerns neither of them is not seen in the session: the positions close the gap, so that they
still mean the same theme, and the history still belongs to it (`deletion_elsewhere_undisturbed`).

What is undisturbed at one moment stays so: from then on changes of the active theme do the same as
without the deletion, and are refused where they would have been (`Undisturbed.performAll?`).

Entries are told apart by their positions. A snapshot may hold an identifier several times, and the
identifier means the first entry that has it.
-/

namespace DesignSystem.Studio

/-- Both studios are editing the same theme with the same history. -/
structure Undisturbed (s s' : Studio) : Prop where
  theme : ∃ t, s.activeTheme? = some t ∧ s'.activeTheme? = some t
  history : s'.history = s.history

variable {s s' : Studio}

/-! ### Deletions -/

/-- **Without a brand that is not the active one the session goes on in the same brand.** -/
theorem activeBrand?_withoutBrand (s : Studio) {i : Nat} (h : i ≠ s.brandIndex) :
    activeBrand? { s.withoutBrand i with brandIndex := closeGap i s.brandIndex } =
      s.activeBrand? :=
  getElem?_eraseIdx_of_shift s.brands (shift_of_ne h)

theorem Anchored.undisturbed_withoutBrand (h : Anchored s) {i : Nat} (hOther : i ≠ s.brandIndex) :
    Undisturbed s { s.withoutBrand i with brandIndex := closeGap i s.brandIndex } where
  theme := by
    obtain ⟨t, ht⟩ := h.activeTheme?_eq_some
    refine ⟨t, ht, ?_⟩
    rw [activeTheme?, activeBrand?_withoutBrand s hOther]
    exact ht
  history := rfl

theorem Anchored.undisturbed_withoutTheme (h : Anchored s) (now : Instant) {j : Nat}
    (hOther : j ≠ s.themeIndex) :
    Undisturbed s { s.withoutTheme now j with themeIndex := closeGap j s.themeIndex } where
  theme := by
    obtain ⟨t, ht⟩ := h.activeTheme?_eq_some
    have hShift : shift j s.active.2 = some (closeGap j s.themeIndex) := shift_of_ne hOther
    exact ⟨t, ht, (theme?_withoutTheme s now rfl hShift).trans ht⟩
  history := rfl

/-- Two different positions of a list are two entries. -/
theorem length_ne_one_of_ne {α : Type} {l : List α} {i k : Nat} (hi : i < l.length)
    (hk : k < l.length) (h : i ≠ k) : l.length ≠ 1 := by
  omega

/-- **A brand other than the active one can always be deleted**, since it is not the only one. -/
theorem Anchored.deleteBrand_of_ne (h : Anchored s) {id : String} {i : Nat}
    (hi : s.indexOfBrand? id = some i) (hOther : i ≠ s.brandIndex) :
    s.deleteBrand id = .ok { s.withoutBrand i with brandIndex := closeGap i s.brandIndex } := by
  obtain ⟨b, hb, -⟩ := h.active
  have hActive : s.brandIndex < s.brands.length := (List.getElem?_eq_some_iff.mp hb).1
  have hTwo := length_ne_one_of_ne (indexOfBrand?_lt hi) hActive hOther
  rw [deleteBrand, hi]
  simp only [if_neg hTwo, if_neg hOther]
  unfold closeGap
  split <;> rfl

/-- **A theme other than the active one can always be deleted.** -/
theorem Anchored.deleteTheme_of_ne (h : Anchored s) (now : Instant) {id : String} {j : Nat}
    (hj : s.indexOfTheme? id = some j) (hOther : j ≠ s.themeIndex) :
    s.deleteTheme now id =
      .ok { s.withoutTheme now j with themeIndex := closeGap j s.themeIndex } := by
  obtain ⟨b, hb, hActive⟩ := h.active
  obtain ⟨b', hb', hLess⟩ := indexOfTheme?_lt hj
  cases hb.symm.trans hb'
  have hTwo := length_ne_one_of_ne hLess hActive hOther
  rw [deleteTheme, hj, hb]
  simp only [if_neg hTwo, if_neg hOther]
  unfold closeGap
  split <;> rfl

/-! ### What comes after -/

/-- Whether an operation starts from the tree of the active theme and its history, and from nothing
else. -/
def Operation.isOnActive : Operation → Bool
  | .update .. | .replaceTokens .. | .applySuggestion .. | .suggest .. | .undo _ | .redo _ => true
  | _ => false

namespace Undisturbed

theorem activeTokens_eq (h : Undisturbed s s') : s'.activeTokens = s.activeTokens := by
  obtain ⟨t, ht, ht'⟩ := h.theme
  rw [activeTokens, activeTokens, ht, ht']

/-- Writing the same tree, with the same new history. -/
theorem writeActive (h : Undisturbed s s') (history : History Tree) (now : Instant)
    (tokens : Tree) :
    Undisturbed ({ s with history }.writeActive now tokens)
      ({ s' with history }.writeActive now tokens) := by
  obtain ⟨t, ht, ht'⟩ := h.theme
  have hWritten : ∀ {u : Studio}, u.activeTheme? = some t →
      ({ u with history }.writeActive now tokens).activeTheme? = some { t with tokens } := by
    intro u hu
    have hTheme : theme? { u with history } u.active = some t := hu
    rw [activeTheme?_eq, active_writeActive, theme?_writeActive]
    show (theme? { u with history } u.active).map _ = _
    rw [hTheme, Option.map_some]
    exact congrArg some (if_pos rfl)
  exact ⟨⟨_, hWritten ht, hWritten ht'⟩, rfl⟩

theorem applySuggestion (h : Undisturbed s s') (now : Instant) (patch : Tree) :
    Undisturbed (s.applySuggestion now patch) (s'.applySuggestion now patch) := by
  obtain ⟨t, ht, ht'⟩ := h.theme
  have hPatched : ∀ {u : Studio}, u.activeTheme? = some t →
      (u.applySuggestion now patch).activeTheme? = some (patchTheme patch t) := by
    intro u hu
    have hTheme : u.theme? u.active = some t := hu
    rw [activeTheme?_eq, theme?_applySuggestion]
    show (u.theme? u.active).map _ = _
    rw [hTheme, Option.map_some]
    exact congrArg some (if_pos rfl)
  have hHistory : ∀ {u : Studio}, u.activeTheme? = some t →
      (u.applySuggestion now patch).history = u.history.push (patchTheme patch t).tokens := by
    intro u hu
    show u.history.push (u.applySuggestion now patch).activeTokens = _
    rw [activeTokens, hPatched hu]
    rfl
  refine ⟨⟨_, hPatched ht, hPatched ht'⟩, ?_⟩
  rw [hHistory ht, hHistory ht', h.history]

theorem perform? (h : Undisturbed s s') {op : Operation} (hOp : op.isOnActive = true) :
    Option.Rel Undisturbed (s.perform? op) (s'.perform? op) := by
  cases op with
  | update now path value =>
    simp only [Studio.perform?, update?, h.activeTokens_eq]
    split
    · exact .none
    · rw [commit, commit, h.history]
      exact .some (h.writeActive _ now _)
  | replaceTokens now tokens =>
    simp only [Studio.perform?, replaceTokens, commit, h.history]
    exact .some (h.writeActive _ now tokens)
  | applySuggestion now patch => exact .some (h.applySuggestion now patch)
  | suggest now suggester description =>
    simp only [Studio.perform?, suggest?]
    cases suggester description with
    | none => exact .none
    | some patch => exact .some (h.applySuggestion now patch)
  | undo now =>
    simp only [Studio.perform?, undo?, h.history]
    cases s.history.undo? with
    | none => exact .none
    | some past => exact .some (h.writeActive past now _)
  | redo now =>
    simp only [Studio.perform?, redo?, h.history]
    cases s.history.redo? with
    | none => exact .none
    | some next => exact .some (h.writeActive next now _)
  | _ => cases hOp

/-- **A run of such operations makes undisturbed studios of undisturbed ones**, or is refused by
both. -/
theorem performAll? (h : Undisturbed s s') {ops : List Operation}
    (hOps : ∀ op ∈ ops, op.isOnActive = true) :
    Option.Rel Undisturbed (s.performAll? ops) (s'.performAll? ops) := by
  induction ops generalizing s s' with
  | nil => exact .some h
  | cons op ops ih =>
    obtain ⟨hOp, hRest⟩ := List.forall_mem_cons.mp hOps
    rw [performAll?_cons, performAll?_cons]
    have hStep := h.perform? hOp
    generalize s.perform? op = next at hStep ⊢
    generalize s'.perform? op = next' at hStep ⊢
    cases hStep with
    | none => exact .none
    | some hNext => exact ih hNext hRest

end Undisturbed

/-! ### The statement -/

/-- **Deleting something else does not disturb the session.** At any moment a brand other than the
active one, or a theme of the active brand other than the active one, can be deleted. Exactly that
entry is gone, the active brand and the active theme are the same, and so is the history. The
active brand is changed only if it is one of its themes that is deleted. -/
theorem deletion_elsewhere_undisturbed {start : Studio} (hStart : Start start)
    (ops : List Operation) :
    let s := start.run ops
    (∀ id i, s.indexOfBrand? id = some i → i ≠ s.brandIndex →
      ∃ s' b, s.deleteBrand id = .ok s' ∧ s'.brands = s.brands.eraseIdx i ∧
        s.activeBrand? = some b ∧ s'.activeBrand? = some b ∧ Undisturbed s s') ∧
    ∀ now id j, s.indexOfTheme? id = some j → j ≠ s.themeIndex →
      ∃ s' b, s.deleteTheme now id = .ok s' ∧ s.activeBrand? = some b ∧
        (let rest := { b with themes := b.themes.eraseIdx j, updatedAt := now }
        s'.brands = s.brands.set s.brandIndex rest ∧ s'.activeBrand? = some rest) ∧
        Undisturbed s s' := by
  intro s
  have h : Anchored s := anchored_run hStart ops
  obtain ⟨b, hb, -⟩ := h.active
  constructor
  · intro id i hi hOther
    exact ⟨_, b, h.deleteBrand_of_ne hi hOther, rfl, hb,
      (activeBrand?_withoutBrand s hOther).trans hb, h.undisturbed_withoutBrand hOther⟩
  · intro now id j hj hOther
    have hSet : s.putBrand s.brandIndex { b with themes := b.themes.eraseIdx j, updatedAt := now } =
        s.withoutTheme now j :=
      putBrand_eq_modifyBrand hb fun b => Brand.touch { b with themes := b.themes.eraseIdx j } now
    refine ⟨_, b, h.deleteTheme_of_ne now hj hOther, hb, ⟨?_, ?_⟩,
      h.undisturbed_withoutTheme now hOther⟩
    · exact congrArg Studio.brands hSet.symm
    · show (s.withoutTheme now j).activeBrand? = _
      rw [withoutTheme, activeBrand?_modifyBrand, hb, Option.map_some]
      rfl

/-- A second brand with the same identifiers is edited in its dark theme, with a step to undo and
one to redo, and what the identifiers mean stands in front of it. -/
theorem deletion_elsewhere_of_twins :
    let start := create ⟨"b", "l", "d"⟩ Instant.epoch
    let ops := [.createBrand ⟨"b", "l", "d"⟩ Instant.epoch "Twin" "", .selectTheme "d",
      .replaceTokens Instant.epoch Tree.empty, .replaceTokens Instant.epoch Tree.light,
      .undo Instant.epoch]
    let s := start.run ops
    Start start ∧ s.brandIndex = 1 ∧ s.themeIndex = 1 ∧ s.history.undo?.isSome = true ∧
      s.history.redo?.isSome = true ∧
      (∃ s' b, s.deleteBrand "b" = .ok s' ∧ s'.brands = s.brands.eraseIdx 0 ∧
        s.activeBrand? = some b ∧ s'.activeBrand? = some b ∧ Undisturbed s s') ∧
      ∃ s' b, s.deleteTheme Instant.epoch "l" = .ok s' ∧ s.activeBrand? = some b ∧
        (let rest := { b with themes := b.themes.eraseIdx 0, updatedAt := Instant.epoch }
        s'.brands = s.brands.set s.brandIndex rest ∧ s'.activeBrand? = some rest) ∧
        Undisturbed s s' := by
  intro start ops s
  have hStart : Start start := .create _ _
  obtain ⟨hBrands, hThemes⟩ := deletion_elsewhere_undisturbed hStart ops
  exact ⟨hStart, by decide, by decide, by decide, by decide,
    hBrands "b" 0 (by decide) (by decide), hThemes Instant.epoch "l" 0 (by decide) (by decide)⟩

end DesignSystem.Studio
