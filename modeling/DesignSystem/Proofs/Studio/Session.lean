import DesignSystem.Studio.Snapshot
/-!
# Sessions

A session starts from a new studio or from a snapshot that is accepted, and performs operations one
after the other with any arguments. An operation that is refused leaves the studio as it is.

`perform?_deleteBrand` and the statements after it say all that an operation does when it is not
refused, so that nothing else has to look into the operations themselves.
-/

namespace DesignSystem.Studio

/-- An operation with its arguments. Times and identifiers are those that the surroundings give when
it is performed. -/
inductive Operation where
  | createBrand (ids : Brand.Ids) (now : Instant) (name description : String)
  | deleteBrand (id : String)
  | renameBrand (now : Instant) (id name : String)
  | selectBrand (id : String)
  | addTheme (id : String) (now : Instant) (name : String) (mode : Mode)
  | deleteTheme (now : Instant) (id : String)
  | selectTheme (id : String)
  | switchMode (mode : Mode)
  | update (now : Instant) (path value : String)
  | replaceTokens (now : Instant) (tokens : Tree)
  | applySuggestion (now : Instant) (patch : Tree)
  | suggest (now : Instant) (suggester : String → Option Tree) (description : String)
  | undo (now : Instant)
  | redo (now : Instant)

/-- The studio after an operation, or nothing if the operation is refused. -/
def perform? (s : Studio) : Operation → Option Studio
  | .createBrand ids now name description => some (s.createBrand ids now name description)
  | .deleteBrand id => (s.deleteBrand id).toOption
  | .renameBrand now id name => (s.renameBrand now id name).toOption
  | .selectBrand id => (s.selectBrand id).toOption
  | .addTheme id now name mode => some (s.addTheme id now name mode)
  | .deleteTheme now id => (s.deleteTheme now id).toOption
  | .selectTheme id => (s.selectTheme id).toOption
  | .switchMode mode => some (s.switchMode mode)
  | .update now path value => s.update? now path value
  | .replaceTokens now tokens => some (s.replaceTokens now tokens)
  | .applySuggestion now patch => some (s.applySuggestion now patch)
  | .suggest now suggester description => s.suggest? now suggester description
  | .undo now => s.undo? now
  | .redo now => s.redo? now

/-- The studio after an operation, which is the studio itself if the operation is refused. -/
def perform (s : Studio) (op : Operation) : Studio :=
  (s.perform? op).getD s

/-- The studio after operations one after the other. -/
def run (s : Studio) (ops : List Operation) : Studio :=
  ops.foldl perform s

/-- The studio after operations one after the other, or nothing if one of them is refused. -/
def performAll? (s : Studio) (ops : List Operation) : Option Studio :=
  ops.foldlM perform? s

/-- Where a session may start. -/
inductive Start : Studio → Prop
  | create (ids : Brand.Ids) (now : Instant) : Start (create ids now)
  | ofSnapshot {snapshot : Snapshot} {s : Studio} (h : ofSnapshot snapshot = .ok s) : Start s

theorem run_nil (s : Studio) : s.run [] = s := rfl

theorem run_cons (s : Studio) (op : Operation) (ops : List Operation) :
    s.run (op :: ops) = (s.perform op).run ops := rfl

theorem run_append (s : Studio) (ops more : List Operation) :
    s.run (ops ++ more) = (s.run ops).run more :=
  List.foldl_append

/-- **What a step keeps, a run keeps.** -/
theorem run_induction {P : Studio → Prop} (hStep : ∀ s op, P s → P (s.perform op)) :
    ∀ (ops : List Operation) (s : Studio), P s → P (s.run ops) := by
  intro ops
  induction ops with
  | nil => intro s hs; exact hs
  | cons op ops ih => intro s hs; exact ih (s.perform op) (hStep s op hs)

theorem perform_of_some {s s' : Studio} {op : Operation} (h : s.perform? op = some s') :
    s.perform op = s' := by
  rw [perform, h, Option.getD_some]

theorem perform_of_none {s : Studio} {op : Operation} (h : s.perform? op = none) :
    s.perform op = s := by
  rw [perform, h, Option.getD_none]

theorem performAll?_nil (s : Studio) : s.performAll? [] = some s := rfl

theorem performAll?_cons (s : Studio) (op : Operation) (ops : List Operation) :
    s.performAll? (op :: ops) = (s.perform? op).bind (·.performAll? ops) :=
  List.foldlM_cons

/-- Where no operation is refused, nothing is left out. -/
theorem run_of_performAll? {s s' : Studio} {ops : List Operation}
    (h : s.performAll? ops = some s') : s.run ops = s' := by
  induction ops generalizing s with
  | nil => exact Option.some.inj h
  | cons op ops ih =>
    rw [performAll?_cons] at h
    obtain ⟨next, hNext, h⟩ := Option.bind_eq_some_iff.mp h
    rw [run_cons, perform_of_some hNext]
    exact ih h

/-! ### Opening snapshots -/

/-- The position of the brand that a snapshot names as active, or the first. -/
def brandIndexOf (snapshot : Snapshot) : Nat :=
  (snapshot.brands.findIdx? fun b => b.id == snapshot.activeBrandId).getD 0

/-- The position of the theme that a snapshot names as active in the active brand, or the first. -/
def themeIndexOf (snapshot : Snapshot) : Nat :=
  let themes := (snapshot.brands[brandIndexOf snapshot]?.map Brand.themes).getD []
  (themes.findIdx? fun t => t.id == snapshot.activeThemeId).getD 0

/-- **A snapshot is accepted exactly if it has a brand and every brand has a theme.** -/
theorem ofSnapshot_eq_ok_iff {snapshot : Snapshot} {s : Studio} :
    ofSnapshot snapshot = .ok s ↔ snapshot.brands ≠ [] ∧ (∀ b ∈ snapshot.brands, b.themes ≠ []) ∧
      s = openAt snapshot.brands (brandIndexOf snapshot) (themeIndexOf snapshot) := by
  unfold ofSnapshot
  by_cases hEmpty : snapshot.brands = []
  · simp [hEmpty]
  · rw [if_neg (by simpa using hEmpty)]
    cases hFind : snapshot.brands.find? fun b => b.themes.isEmpty with
    | some b =>
      have hThemes := List.find?_some hFind
      constructor
      · intro h
        cases h
      · rintro ⟨-, hThemed, -⟩
        exact absurd (List.isEmpty_iff.mp hThemes) (hThemed b (List.mem_of_find?_eq_some hFind))
    | none =>
      have hThemed : ∀ b ∈ snapshot.brands, b.themes ≠ [] := by
        intro b hb hThemes
        exact List.find?_eq_none.mp hFind b hb (by rw [hThemes]; rfl)
      constructor
      · intro h
        exact ⟨hEmpty, hThemed, (Except.ok.inj h).symm⟩
      · rintro ⟨-, -, rfl⟩
        rfl

/-! ### What an operation does -/

theorem indexOfBrand?_lt {s : Studio} {id : String} {i : Nat} (h : s.indexOfBrand? id = some i) :
    i < s.brands.length :=
  (List.findIdx?_eq_some_iff_getElem.mp h).1

theorem indexOfTheme?_lt {s : Studio} {id : String} {j : Nat} (h : s.indexOfTheme? id = some j) :
    ∃ b, s.activeBrand? = some b ∧ j < b.themes.length := by
  obtain ⟨b, hb, hj⟩ := Option.bind_eq_some_iff.mp h
  exact ⟨b, hb, (List.findIdx?_eq_some_iff_getElem.mp hj).1⟩

/-- The studio without the brand at `i`, before another becomes active. -/
def withoutBrand (s : Studio) (i : Nat) : Studio :=
  { s with brands := s.brands.eraseIdx i }

/-- The studio without the theme at `j` of the active brand, before another becomes active. -/
def withoutTheme (s : Studio) (now : Instant) (j : Nat) : Studio :=
  s.modifyBrand fun b => { b with themes := b.themes.eraseIdx j }.touch now

/-- Positions behind the removed one move up. -/
def closeGap (i k : Nat) : Nat :=
  if i < k then k - 1 else k

theorem eq_closeGap {i k : Nat} {f : Nat → Studio} {s' : Studio} (h : Except.toOption
    (if i < k then .ok (f (k - 1)) else .ok (f k) : Except Refusal Studio) = some s') :
    s' = f (closeGap i k) := by
  unfold closeGap
  split at h
  · rename_i hLess
    rw [if_pos hLess]
    exact (Option.some.inj h).symm
  · rename_i hLess
    rw [if_neg hLess]
    exact (Option.some.inj h).symm

theorem perform?_deleteBrand {s s' : Studio} {id : String}
    (h : s.perform? (.deleteBrand id) = some s') :
    ∃ i, s.indexOfBrand? id = some i ∧ s.brands.length ≠ 1 ∧
      (i = s.brandIndex ∧ s' = (s.withoutBrand i).activate 0 s.activeMode ∨
        i ≠ s.brandIndex ∧
          s' = { s.withoutBrand i with brandIndex := closeGap i s.brandIndex }) := by
  simp only [perform?, deleteBrand] at h
  cases hi : s.indexOfBrand? id with
  | none => simp [hi, Except.toOption] at h
  | some i =>
    refine ⟨i, rfl, ?_⟩
    by_cases hOne : s.brands.length = 1
    · simp [hi, hOne, Except.toOption] at h
    · refine ⟨hOne, ?_⟩
      simp only [hi, if_neg hOne] at h
      by_cases hActive : i = s.brandIndex
      · rw [if_pos hActive] at h
        exact Or.inl ⟨hActive, (Option.some.inj h).symm⟩
      · rw [if_neg hActive] at h
        exact Or.inr ⟨hActive, eq_closeGap (f := ({ s.withoutBrand i with brandIndex := · })) h⟩

theorem perform?_deleteTheme {s s' : Studio} {now : Instant} {id : String}
    (h : s.perform? (.deleteTheme now id) = some s') :
    ∃ j b, s.indexOfTheme? id = some j ∧ s.activeBrand? = some b ∧ b.themes.length ≠ 1 ∧
      (j = s.themeIndex ∧ s' = (s.withoutTheme now j).activate s.brandIndex s.activeMode ∨
        j ≠ s.themeIndex ∧
          s' = { s.withoutTheme now j with themeIndex := closeGap j s.themeIndex }) := by
  simp only [perform?, deleteTheme] at h
  cases hj : s.indexOfTheme? id with
  | none => simp [hj, Except.toOption] at h
  | some j =>
    obtain ⟨b, hb, _⟩ := indexOfTheme?_lt hj
    refine ⟨j, b, rfl, hb, ?_⟩
    by_cases hOne : b.themes.length = 1
    · simp [hj, hb, hOne, Except.toOption] at h
    · refine ⟨hOne, ?_⟩
      simp only [hj, hb, if_neg hOne] at h
      by_cases hActive : j = s.themeIndex
      · rw [if_pos hActive] at h
        exact Or.inl ⟨hActive, (Option.some.inj h).symm⟩
      · rw [if_neg hActive] at h
        exact Or.inr ⟨hActive, eq_closeGap (f := ({ s.withoutTheme now j with themeIndex := · })) h⟩

theorem perform?_renameBrand {s s' : Studio} {now : Instant} {id name : String}
    (h : s.perform? (.renameBrand now id name) = some s') :
    ∃ i, s.indexOfBrand? id = some i ∧
      s' = { s with brands := s.brands.modify i fun b => { b with name }.touch now } := by
  simp only [perform?, renameBrand] at h
  cases hi : s.indexOfBrand? id with
  | none => simp [hi, Except.toOption] at h
  | some i =>
    simp only [hi] at h
    exact ⟨i, rfl, (Option.some.inj h).symm⟩

theorem perform?_selectBrand {s s' : Studio} {id : String}
    (h : s.perform? (.selectBrand id) = some s') :
    ∃ i, s.indexOfBrand? id = some i ∧ s' = s.activate i s.activeMode := by
  simp only [perform?, selectBrand] at h
  cases hi : s.indexOfBrand? id with
  | none => simp [hi, Except.toOption] at h
  | some i =>
    simp only [hi] at h
    exact ⟨i, rfl, (Option.some.inj h).symm⟩

theorem perform?_selectTheme {s s' : Studio} {id : String}
    (h : s.perform? (.selectTheme id) = some s') :
    ∃ j, s.indexOfTheme? id = some j ∧ s' = restart { s with themeIndex := j } := by
  simp only [perform?, selectTheme] at h
  cases hj : s.indexOfTheme? id with
  | none => simp [hj, Except.toOption] at h
  | some j =>
    simp only [hj] at h
    exact ⟨j, rfl, (Option.some.inj h).symm⟩

theorem perform?_update {s s' : Studio} {now : Instant} {path value : String}
    (h : s.perform? (.update now path value) = some s') :
    s' = s.commit now (s.activeTokens.set path value) := by
  simp only [perform?, update?] at h
  split at h
  · cases h
  · exact (Option.some.inj h).symm

theorem perform?_suggest {s s' : Studio} {now : Instant} {suggester : String → Option Tree}
    {description : String} (h : s.perform? (.suggest now suggester description) = some s') :
    ∃ patch, suggester description = some patch ∧ s' = s.applySuggestion now patch := by
  obtain ⟨patch, hPatch, he⟩ := Option.map_eq_some_iff.mp h
  exact ⟨patch, hPatch, he.symm⟩

theorem perform?_undo {s s' : Studio} {now : Instant} (h : s.perform? (.undo now) = some s') :
    ∃ past, s.history.undo? = some past ∧
      s' = { s with history := past }.writeActive now past.present := by
  obtain ⟨past, hPast, he⟩ := Option.map_eq_some_iff.mp h
  exact ⟨past, hPast, he.symm⟩

theorem perform?_redo {s s' : Studio} {now : Instant} (h : s.perform? (.redo now) = some s') :
    ∃ next, s.history.redo? = some next ∧
      s' = { s with history := next }.writeActive now next.present := by
  obtain ⟨next, hNext, he⟩ := Option.map_eq_some_iff.mp h
  exact ⟨next, hNext, he.symm⟩

end DesignSystem.Studio
