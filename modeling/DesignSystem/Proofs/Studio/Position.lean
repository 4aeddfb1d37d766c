import DesignSystem.Proofs.Studio.Session
/-!
# Themes by position

A theme is followed through a session by its position, since identifiers need not be unique in a
snapshot: `follow` says where the theme at a position stands after an operation, and
`theme?_follow` that the same theme stands there. A deletion shifts what comes after the deleted
entry; nothing else moves a theme.
-/

namespace DesignSystem.Studio

/-- A position: that of a brand and that of a theme in it. -/
abbrev Position := Nat × Nat

/-- The position of the active theme. -/
def active (s : Studio) : Position :=
  (s.brandIndex, s.themeIndex)

/-- The theme at a position. -/
def theme? (s : Studio) (p : Position) : Option Theme :=
  s.brands[p.1]?.bind fun b => b.themes[p.2]?

theorem activeTheme?_eq (s : Studio) : s.activeTheme? = s.theme? s.active := rfl

/-- Where an entry of a list stands after the one at `i` is removed. -/
def shift (i k : Nat) : Option Nat :=
  if k = i then none else if i < k then some (k - 1) else some k

theorem getElem?_eraseIdx_of_shift {α : Type} (l : List α) {i k k' : Nat}
    (h : shift i k = some k') : (l.eraseIdx i)[k']? = l[k]? := by
  unfold shift at h
  split at h
  · cases h
  · split at h
    · cases h
      rw [List.getElem?_eraseIdx_of_ge (by omega), show k - 1 + 1 = k by omega]
    · cases h
      rw [List.getElem?_eraseIdx_of_lt (by omega)]

theorem shift_of_ne {i k : Nat} (h : i ≠ k) : shift i k = some (closeGap i k) := by
  unfold shift closeGap
  rw [if_neg (Ne.symm h)]
  split <;> rfl

/-- Where the theme at a position stands after an operation that is not refused: nowhere if the
operation deletes it. -/
def moved (s : Studio) (p : Position) : Operation → Option Position
  | .deleteBrand id => (s.indexOfBrand? id).bind fun i => (shift i p.1).map fun b => (b, p.2)
  | .deleteTheme _ id =>
    if p.1 = s.brandIndex then
      (s.indexOfTheme? id).bind fun j => (shift j p.2).map fun t => (p.1, t)
    else some p
  | _ => some p

/-- Where the theme at a position stands after an operation. -/
def follow (s : Studio) (op : Operation) (p : Position) : Option Position :=
  match s.perform? op with
  | none => some p
  | some _ => s.moved p op

theorem follow_of_none {s : Studio} {op : Operation} (h : s.perform? op = none) (p : Position) :
    s.follow op p = some p := by
  rw [follow, h]

theorem follow_of_some {s s' : Studio} {op : Operation} (h : s.perform? op = some s')
    (p : Position) : s.follow op p = s.moved p op := by
  rw [follow, h]

/-! ### Building blocks by position -/

theorem getElem?_modifyBrand (s : Studio) (f : Brand → Brand) (i : Nat) :
    (s.modifyBrand f).brands[i]? =
      (s.brands[i]?).map fun b => if s.brandIndex = i then f b else b := by
  rw [modifyBrand, List.getElem?_modify]
  split <;> simp_all

theorem activeBrand?_modifyBrand (s : Studio) (f : Brand → Brand) :
    (s.modifyBrand f).activeBrand? = s.activeBrand?.map f := by
  rw [activeBrand?, activeBrand?]
  show (s.modifyBrand f).brands[s.brandIndex]? = _
  rw [getElem?_modifyBrand]
  simp only [if_pos]

/-- A change of the active brand that keeps the themes with their places, apart from what `g` does
to them. -/
theorem theme?_modifyBrand {s : Studio} {f : Brand → Brand} {g : Nat → Theme → Theme}
    (hf : ∀ b j, (f b).themes[j]? = (b.themes[j]?).map (g j)) (p : Position) :
    (s.modifyBrand f).theme? p =
      (s.theme? p).map fun t => if s.brandIndex = p.1 then g p.2 t else t := by
  rw [theme?, theme?, getElem?_modifyBrand]
  cases hb : s.brands[p.1]? with
  | none => simp
  | some b =>
    by_cases hp : s.brandIndex = p.1
    · simp [hp, hf]
    · simp [hp]

/-- **Writing shows in the active theme and nowhere else.** -/
theorem theme?_writeActive (s : Studio) (now : Instant) (tokens : Tree) (p : Position) :
    (s.writeActive now tokens).theme? p =
      (s.theme? p).map fun t => if s.active = p then { t with tokens } else t := by
  rw [writeActive, theme?_modifyBrand (g := fun j t => if s.themeIndex = j then { t with tokens }
    else t)]
  · congr 1
    funext t
    obtain ⟨i, j⟩ := p
    by_cases hi : s.brandIndex = i <;> by_cases hj : s.themeIndex = j <;> simp [active, hi, hj]
  · intro b j
    show (b.themes.modify s.themeIndex fun t => { t with tokens })[j]? = _
    rw [List.getElem?_modify]
    split <;> simp_all

@[simp] theorem active_writeActive (s : Studio) (now : Instant) (tokens : Tree) :
    (s.writeActive now tokens).active = s.active := rfl

@[simp] theorem history_writeActive (s : Studio) (now : Instant) (tokens : Tree) :
    (s.writeActive now tokens).history = s.history := rfl

@[simp] theorem theme?_activate (s : Studio) (index : Nat) (mode : Mode) (p : Position) :
    (s.activate index mode).theme? p = s.theme? p := rfl

@[simp] theorem history_commit (s : Studio) (now : Instant) (tokens : Tree) :
    (s.commit now tokens).history = s.history.push tokens := rfl

theorem theme?_commit (s : Studio) (now : Instant) (tokens : Tree) (p : Position) :
    (s.commit now tokens).theme? p =
      (s.theme? p).map fun t => if s.active = p then { t with tokens } else t :=
  theme?_writeActive { s with history := s.history.push tokens } now tokens p

theorem theme?_withoutBrand (s : Studio) {i b : Nat} {p : Position} (h : shift i p.1 = some b) :
    (s.withoutBrand i).theme? (b, p.2) = s.theme? p := by
  rw [theme?, theme?]
  show ((s.brands.eraseIdx i)[b]?).bind _ = _
  rw [getElem?_eraseIdx_of_shift s.brands h]

theorem theme?_withoutTheme (s : Studio) (now : Instant) {j t : Nat} {p : Position}
    (hBrand : p.1 = s.brandIndex) (h : shift j p.2 = some t) :
    (s.withoutTheme now j).theme? (p.1, t) = s.theme? p := by
  rw [theme?, theme?, withoutTheme, getElem?_modifyBrand]
  cases hb : s.brands[p.1]? with
  | none => rfl
  | some b =>
    rw [Option.map_some, if_pos hBrand.symm, Option.bind_some, Option.bind_some]
    exact getElem?_eraseIdx_of_shift b.themes h

theorem theme?_withoutTheme_of_ne (s : Studio) (now : Instant) (j : Nat) {p : Position}
    (hBrand : p.1 ≠ s.brandIndex) : (s.withoutTheme now j).theme? p = s.theme? p := by
  rw [theme?, theme?, withoutTheme, getElem?_modifyBrand]
  cases hb : s.brands[p.1]? with
  | none => rfl
  | some b => rw [Option.map_some, if_neg (Ne.symm hBrand)]

theorem theme?_addTheme {s : Studio} {p : Position} {t : Theme} (h : s.theme? p = some t)
    (id : String) (now : Instant) (name : String) (mode : Mode) :
    (s.addTheme id now name mode).theme? p = some t := by
  obtain ⟨b, hb, ht⟩ := Option.bind_eq_some_iff.mp h
  rw [theme?, addTheme, getElem?_modifyBrand, hb, Option.map_some, Option.bind_some]
  split
  · show (b.themes ++ [_])[p.2]? = some t
    rw [List.getElem?_append_left (List.getElem?_eq_some_iff.mp ht).1, ht]
  · exact ht

theorem theme?_createBrand {s : Studio} {p : Position} {t : Theme} (h : s.theme? p = some t)
    (ids : Brand.Ids) (now : Instant) (name description : String) :
    (s.createBrand ids now name description).theme? p = some t := by
  obtain ⟨b, hb, ht⟩ := Option.bind_eq_some_iff.mp h
  rw [createBrand, theme?_activate, theme?]
  show ((s.brands ++ [_])[p.1]?).bind _ = some t
  rw [List.getElem?_append_left (List.getElem?_eq_some_iff.mp hb).1, hb, Option.bind_some, ht]

theorem theme?_renameBrand (s : Studio) (i : Nat) (now : Instant) (name : String) (p : Position) :
    theme? { s with brands := s.brands.modify i fun b => { b with name }.touch now } p =
      s.theme? p := by
  rw [theme?, theme?]
  show ((s.brands.modify i _)[p.1]?).bind _ = _
  rw [List.getElem?_modify]
  cases s.brands[p.1]? with
  | none => rfl
  | some b => split <;> rfl

theorem theme?_applySuggestion (s : Studio) (now : Instant) (patch : Tree) (p : Position) :
    (s.applySuggestion now patch).theme? p =
      (s.theme? p).map fun t => if s.brandIndex = p.1 then patchTheme patch t else t :=
  theme?_modifyBrand (g := fun _ t => patchTheme patch t) (fun b j => by
    show (b.themes.map (patchTheme patch))[j]? = _
    rw [List.getElem?_map]) p

/-! ### Following a theme -/

/-- Two states of one theme. Only the tree of a theme ever changes. -/
def SameTheme (t t' : Theme) : Prop :=
  t'.id = t.id ∧ t'.name = t.name ∧ t'.mode = t.mode

theorem SameTheme.refl (t : Theme) : SameTheme t t := ⟨rfl, rfl, rfl⟩

/-- A theme stays the same one if some themes are changed by a function that keeps it so. -/
theorem sameTheme_map {x : Option Theme} {t : Theme} {f : Theme → Theme} {c : Prop} [Decidable c]
    (h : x = some t) (hf : SameTheme t (f t)) :
    ∃ t', (x.map fun t => if c then f t else t) = some t' ∧ SameTheme t t' := by
  refine ⟨if c then f t else t, by rw [h, Option.map_some], ?_⟩
  split
  · exact hf
  · exact .refl t

theorem theme?_follow_deleteBrand {s s' : Studio} {id : String} {p q : Position}
    (h : s.perform? (.deleteBrand id) = some s') (hq : s.follow (.deleteBrand id) p = some q) :
    s'.theme? q = s.theme? p := by
  rw [follow_of_some h] at hq
  obtain ⟨i, hi, -, hs⟩ := perform?_deleteBrand h
  simp only [moved, hi, Option.bind_some] at hq
  obtain ⟨b, hb, rfl⟩ := Option.map_eq_some_iff.mp hq
  rcases hs with ⟨-, rfl⟩ | ⟨-, rfl⟩
  · exact theme?_withoutBrand s hb
  · exact theme?_withoutBrand s hb

theorem theme?_follow_deleteTheme {s s' : Studio} {now : Instant} {id : String} {p q : Position}
    (h : s.perform? (.deleteTheme now id) = some s')
    (hq : s.follow (.deleteTheme now id) p = some q) : s'.theme? q = s.theme? p := by
  rw [follow_of_some h] at hq
  obtain ⟨j, b, hj, -, -, hs⟩ := perform?_deleteTheme h
  have hTheme : s'.theme? q = (s.withoutTheme now j).theme? q := by
    rcases hs with ⟨-, rfl⟩ | ⟨-, rfl⟩ <;> rfl
  rw [hTheme]
  by_cases hBrand : p.1 = s.brandIndex
  · simp only [moved, if_pos hBrand, hj, Option.bind_some] at hq
    obtain ⟨t, ht, rfl⟩ := Option.map_eq_some_iff.mp hq
    exact theme?_withoutTheme s now hBrand ht
  · simp only [moved, if_neg hBrand, Option.some.injEq] at hq
    subst hq
    exact theme?_withoutTheme_of_ne s now j hBrand

/-- **A theme that is followed is the same theme.** -/
theorem theme?_follow {s : Studio} {op : Operation} {p q : Position} {t : Theme}
    (hq : s.follow op p = some q) (ht : s.theme? p = some t) :
    ∃ t', (s.perform op).theme? q = some t' ∧ SameTheme t t' := by
  cases h : s.perform? op with
  | none =>
    rw [follow_of_none h, Option.some.injEq] at hq
    rw [perform_of_none h, ← hq]
    exact ⟨t, ht, .refl t⟩
  | some s' =>
    rw [perform_of_some h]
    cases op with
    | deleteBrand id => exact ⟨t, (theme?_follow_deleteBrand h hq).trans ht, .refl t⟩
    | deleteTheme now id => exact ⟨t, (theme?_follow_deleteTheme h hq).trans ht, .refl t⟩
    | createBrand ids now name description =>
      cases (follow_of_some h p).symm.trans hq
      cases h
      exact ⟨t, theme?_createBrand ht ids now name description, .refl t⟩
    | renameBrand now id name =>
      cases (follow_of_some h p).symm.trans hq
      obtain ⟨i, -, rfl⟩ := perform?_renameBrand h
      exact ⟨t, (theme?_renameBrand s i now name p).trans ht, .refl t⟩
    | selectBrand id =>
      cases (follow_of_some h p).symm.trans hq
      obtain ⟨i, -, rfl⟩ := perform?_selectBrand h
      exact ⟨t, ht, .refl t⟩
    | addTheme id now name mode =>
      cases (follow_of_some h p).symm.trans hq
      cases h
      exact ⟨t, theme?_addTheme ht id now name mode, .refl t⟩
    | selectTheme id =>
      cases (follow_of_some h p).symm.trans hq
      obtain ⟨j, -, rfl⟩ := perform?_selectTheme h
      exact ⟨t, ht, .refl t⟩
    | switchMode mode =>
      cases (follow_of_some h p).symm.trans hq
      cases h
      exact ⟨t, ht, .refl t⟩
    | update now path value =>
      cases (follow_of_some h p).symm.trans hq
      rw [perform?_update h, theme?_commit]
      exact sameTheme_map ht ⟨rfl, rfl, rfl⟩
    | replaceTokens now tokens =>
      cases (follow_of_some h p).symm.trans hq
      cases h
      rw [replaceTokens, theme?_commit]
      exact sameTheme_map ht ⟨rfl, rfl, rfl⟩
    | applySuggestion now patch =>
      cases (follow_of_some h p).symm.trans hq
      cases h
      rw [theme?_applySuggestion]
      exact sameTheme_map ht ⟨rfl, rfl, rfl⟩
    | suggest now suggester description =>
      cases (follow_of_some h p).symm.trans hq
      obtain ⟨patch, -, rfl⟩ := perform?_suggest h
      rw [theme?_applySuggestion]
      exact sameTheme_map ht ⟨rfl, rfl, rfl⟩
    | undo now =>
      cases (follow_of_some h p).symm.trans hq
      obtain ⟨past, -, rfl⟩ := perform?_undo h
      rw [theme?_writeActive]
      exact sameTheme_map ht ⟨rfl, rfl, rfl⟩
    | redo now =>
      cases (follow_of_some h p).symm.trans hq
      obtain ⟨next, -, rfl⟩ := perform?_redo h
      rw [theme?_writeActive]
      exact sameTheme_map ht ⟨rfl, rfl, rfl⟩

end DesignSystem.Studio
