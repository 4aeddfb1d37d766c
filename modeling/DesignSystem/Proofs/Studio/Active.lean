import DesignSystem.Proofs.Studio.Position
import Mathlib.Data.List.Basic
/-!
# There is always an active theme

`Anchored` says that every brand has a theme and that the positions of the active brand and theme
lie within their lists. Every studio that a session may start from is anchored, and every operation
keeps it so (`anchored_perform`): a deletion closes the gap in front of the active position, or
makes a theme of what is left the active one, and a last entry is never deleted.

An operation looks entries up by position all the time. `attempt?` performs it with every such
look-up checked and stops where a position is out of range; on anchored studios it never stops
(`Anchored.attempt?_eq`).
-/

namespace DesignSystem.Studio

/-- Every brand has a theme, and the active positions lie within their lists. -/
structure Anchored (s : Studio) : Prop where
  themed : ∀ b ∈ s.brands, b.themes ≠ []
  active : ∃ b, s.activeBrand? = some b ∧ s.themeIndex < b.themes.length

theorem indexForMode_lt {b : Brand} (h : b.themes ≠ []) (mode : Mode) :
    b.indexForMode mode < b.themes.length := by
  unfold Brand.indexForMode
  cases hFind : b.themes.findIdx? fun t => t.mode == mode with
  | none =>
    rw [Option.getD_none]
    exact List.length_pos_iff.mpr h
  | some i =>
    rw [Option.getD_some]
    exact (List.findIdx?_eq_some_iff_getElem.mp hFind).1

theorem Anchored.activeTheme?_eq_some {s : Studio} (h : Anchored s) :
    ∃ t, s.activeTheme? = some t := by
  obtain ⟨b, hb, ht⟩ := h.active
  refine ⟨b.themes[s.themeIndex], ?_⟩
  rw [activeTheme?, hb, Option.bind_some, List.getElem?_eq_getElem ht]

/-! ### Building blocks -/

/-- **Making a brand active anchors the studio**, whatever was active before. -/
theorem anchored_activate {s : Studio} (hThemed : ∀ b ∈ s.brands, b.themes ≠ []) {index : Nat}
    (hIndex : index < s.brands.length) (mode : Mode) : Anchored (s.activate index mode) where
  themed := hThemed
  active := by
    have hBrand := List.getElem?_eq_getElem hIndex
    refine ⟨s.brands[index], hBrand, ?_⟩
    show ((s.brands[index]?).map fun b => b.indexForMode mode).getD 0 <
      s.brands[index].themes.length
    rw [hBrand, Option.map_some, Option.getD_some]
    exact indexForMode_lt (hThemed _ (List.getElem_mem hIndex)) mode

/-- A change of the active brand that does not remove themes. -/
theorem anchored_modifyBrand {s : Studio} (h : Anchored s) {f : Brand → Brand}
    (hf : ∀ b, b.themes.length ≤ (f b).themes.length) : Anchored (s.modifyBrand f) where
  themed := by
    intro b hb
    obtain ⟨i, hi⟩ := List.mem_iff_getElem?.mp hb
    rw [getElem?_modifyBrand] at hi
    obtain ⟨b', hb', rfl⟩ := Option.map_eq_some_iff.mp hi
    have hOld := h.themed b' (List.mem_iff_getElem?.mpr ⟨i, hb'⟩)
    split
    · have := List.length_pos_iff.mpr hOld
      have := hf b'
      exact List.length_pos_iff.mp (by omega)
    · exact hOld
  active := by
    obtain ⟨b, hb, ht⟩ := h.active
    refine ⟨f b, ?_, Nat.lt_of_lt_of_le ht (hf b)⟩
    rw [activeBrand?_modifyBrand, hb, Option.map_some]

theorem Anchored.withHistory {s : Studio} (h : Anchored s) (history : History Tree) :
    Anchored { s with history } := ⟨h.themed, h.active⟩

theorem anchored_writeActive {s : Studio} (h : Anchored s) (now : Instant) (tokens : Tree) :
    Anchored (s.writeActive now tokens) :=
  anchored_modifyBrand h fun b => by
    show b.themes.length ≤ (b.themes.modify s.themeIndex fun t => { t with tokens }).length
    exact Nat.le_of_eq (List.length_modify ..).symm

theorem anchored_commit {s : Studio} (h : Anchored s) (now : Instant) (tokens : Tree) :
    Anchored (s.commit now tokens) :=
  anchored_writeActive (h.withHistory _) now tokens

theorem anchored_applySuggestion {s : Studio} (h : Anchored s) (now : Instant) (patch : Tree) :
    Anchored (s.applySuggestion now patch) := by
  refine (anchored_modifyBrand h fun b => ?_).withHistory _
  show b.themes.length ≤ (b.themes.map (patchTheme patch)).length
  exact Nat.le_of_eq (List.length_map ..).symm

/-! ### Operations -/

theorem Anchored.themed_withoutBrand {s : Studio} (h : Anchored s) (i : Nat) :
    ∀ b ∈ (s.withoutBrand i).brands, b.themes ≠ [] :=
  fun b hb => h.themed b (List.mem_of_mem_eraseIdx hb)

theorem anchored_deleteBrand {s s' : Studio} (h : Anchored s) {id : String}
    (hSome : s.perform? (.deleteBrand id) = some s') : Anchored s' := by
  obtain ⟨i, hi, hOne, hs⟩ := perform?_deleteBrand hSome
  have hLength : (s.withoutBrand i).brands.length = s.brands.length - 1 :=
    List.length_eraseIdx_of_lt (indexOfBrand?_lt hi)
  have hLess := indexOfBrand?_lt hi
  rcases hs with ⟨-, rfl⟩ | ⟨hOther, rfl⟩
  · exact anchored_activate (h.themed_withoutBrand i) (by omega) _
  · refine ⟨h.themed_withoutBrand i, ?_⟩
    obtain ⟨b, hb, ht⟩ := h.active
    refine ⟨b, ?_, ht⟩
    show (s.brands.eraseIdx i)[closeGap i s.brandIndex]? = some b
    rw [getElem?_eraseIdx_of_shift s.brands (shift_of_ne hOther)]
    exact hb

theorem Anchored.themed_withoutTheme {s : Studio} (h : Anchored s) {b : Brand}
    (hb : s.activeBrand? = some b) (hOne : b.themes.length ≠ 1) (now : Instant) (j : Nat) :
    ∀ b ∈ (s.withoutTheme now j).brands, b.themes ≠ [] := by
  intro b' hb'
  obtain ⟨i, hi⟩ := List.mem_iff_getElem?.mp hb'
  rw [withoutTheme, getElem?_modifyBrand] at hi
  obtain ⟨old, hOld, rfl⟩ := Option.map_eq_some_iff.mp hi
  have hThemes := h.themed old (List.mem_iff_getElem?.mpr ⟨i, hOld⟩)
  split
  · rename_i hActive
    subst hActive
    cases hb.symm.trans hOld
    show b.themes.eraseIdx j ≠ []
    have hPos := List.length_pos_iff.mpr hThemes
    have hLess : b.themes.length - 1 ≤ (b.themes.eraseIdx j).length := List.le_length_eraseIdx ..
    exact List.length_pos_iff.mp (by omega)
  · exact hThemes

theorem anchored_deleteTheme {s s' : Studio} (h : Anchored s) {now : Instant} {id : String}
    (hSome : s.perform? (.deleteTheme now id) = some s') : Anchored s' := by
  obtain ⟨j, b, hj, hb, hOne, hs⟩ := perform?_deleteTheme hSome
  have hThemed := h.themed_withoutTheme hb hOne now j
  obtain ⟨b', hb', ht⟩ := h.active
  cases hb.symm.trans hb'
  have hIndex : s.brandIndex < s.brands.length := (List.getElem?_eq_some_iff.mp hb).1
  rcases hs with ⟨-, rfl⟩ | ⟨hOther, rfl⟩
  · refine anchored_activate hThemed ?_ _
    show s.brandIndex < (s.brands.modify s.brandIndex _).length
    rw [List.length_modify]
    exact hIndex
  · refine ⟨hThemed, { b with themes := b.themes.eraseIdx j }.touch now, ?_, ?_⟩
    · show (s.withoutTheme now j).activeBrand? = _
      rw [withoutTheme, activeBrand?_modifyBrand, hb, Option.map_some]
    · have hKept := getElem?_eraseIdx_of_shift b.themes (shift_of_ne hOther)
      rw [List.getElem?_eq_getElem ht] at hKept
      exact (List.getElem?_eq_some_iff.mp hKept).1

theorem anchored_createBrand {s : Studio} (h : Anchored s) (ids : Brand.Ids) (now : Instant)
    (name description : String) : Anchored (s.createBrand ids now name description) := by
  refine anchored_activate ?_ ?_ _
  · intro b hb
    rcases List.mem_append.mp hb with hb | hb
    · exact h.themed b hb
    · rw [List.mem_singleton.mp hb]
      exact List.cons_ne_nil _ _
  · show s.brands.length < (s.brands ++ [_]).length
    rw [List.length_append, List.length_singleton]
    omega

theorem anchored_renameBrand {s s' : Studio} (h : Anchored s) {now : Instant} {id name : String}
    (hSome : s.perform? (.renameBrand now id name) = some s') : Anchored s' := by
  obtain ⟨i, -, rfl⟩ := perform?_renameBrand hSome
  constructor
  · intro b hb
    obtain ⟨k, hk⟩ := List.mem_iff_getElem?.mp hb
    rw [List.getElem?_modify] at hk
    obtain ⟨old, hOld, rfl⟩ := Option.map_eq_some_iff.mp hk
    have hThemes := h.themed old (List.mem_iff_getElem?.mpr ⟨k, hOld⟩)
    split <;> exact hThemes
  · obtain ⟨b, hb, ht⟩ := h.active
    rw [activeBrand?] at hb ⊢
    show ∃ b, (s.brands.modify i _)[s.brandIndex]? = some b ∧ _
    rw [List.getElem?_modify, hb]
    refine ⟨_, rfl, ?_⟩
    split <;> exact ht

theorem anchored_selectTheme {s s' : Studio} (h : Anchored s) {id : String}
    (hSome : s.perform? (.selectTheme id) = some s') : Anchored s' := by
  obtain ⟨j, hj, rfl⟩ := perform?_selectTheme hSome
  exact ⟨h.themed, indexOfTheme?_lt hj⟩

/-- **Every operation keeps the studio anchored.** -/
theorem anchored_perform {s : Studio} (h : Anchored s) (op : Operation) :
    Anchored (s.perform op) := by
  cases hOp : s.perform? op with
  | none => exact (perform_of_none hOp).symm ▸ h
  | some s' =>
    rw [perform_of_some hOp]
    cases op with
    | createBrand ids now name description =>
      cases hOp
      exact anchored_createBrand h ids now name description
    | deleteBrand id => exact anchored_deleteBrand h hOp
    | renameBrand now id name => exact anchored_renameBrand h hOp
    | selectBrand id =>
      obtain ⟨i, hi, rfl⟩ := perform?_selectBrand hOp
      exact anchored_activate h.themed (indexOfBrand?_lt hi) _
    | addTheme id now name mode =>
      cases hOp
      refine anchored_modifyBrand h fun b => ?_
      show b.themes.length ≤ (b.themes ++ [_]).length
      rw [List.length_append]
      omega
    | deleteTheme now id => exact anchored_deleteTheme h hOp
    | selectTheme id => exact anchored_selectTheme h hOp
    | switchMode mode =>
      cases hOp
      obtain ⟨b, hb, -⟩ := h.active
      exact anchored_activate h.themed (List.getElem?_eq_some_iff.mp hb).1 mode
    | update now path value =>
      rw [perform?_update hOp]
      exact anchored_commit h now _
    | replaceTokens now tokens =>
      cases hOp
      exact anchored_commit h now tokens
    | applySuggestion now patch =>
      cases hOp
      exact anchored_applySuggestion h now patch
    | suggest now suggester description =>
      obtain ⟨patch, -, rfl⟩ := perform?_suggest hOp
      exact anchored_applySuggestion h now patch
    | undo now =>
      obtain ⟨past, -, rfl⟩ := perform?_undo hOp
      exact anchored_writeActive (h.withHistory past) now _
    | redo now =>
      obtain ⟨next, -, rfl⟩ := perform?_redo hOp
      exact anchored_writeActive (h.withHistory next) now _

/-! ### Starting -/

/-- A theme position found by searching lies within the themes, if there are any. -/
theorem findIdx?_getD_lt {α : Type} {l : List α} (h : l ≠ []) (p : α → Bool) :
    (l.findIdx? p).getD 0 < l.length := by
  cases hFind : l.findIdx? p with
  | none => exact List.length_pos_iff.mpr h
  | some i => exact (List.findIdx?_eq_some_iff_getElem.mp hFind).1

/-- **A session starts anchored.** -/
theorem anchored_of_start {s : Studio} (h : Start s) : Anchored s := by
  cases h with
  | create ids now =>
    refine ⟨?_, _, rfl, Nat.zero_lt_succ _⟩
    intro b hb
    rw [List.mem_singleton.mp hb]
    exact List.cons_ne_nil _ _
  | @ofSnapshot snapshot _ h =>
    obtain ⟨hBrands, hThemed, rfl⟩ := ofSnapshot_eq_ok_iff.mp h
    have hIndex : brandIndexOf snapshot < snapshot.brands.length := findIdx?_getD_lt hBrands _
    have hBrand := List.getElem?_eq_getElem hIndex
    refine ⟨hThemed, snapshot.brands[brandIndexOf snapshot], hBrand, ?_⟩
    show themeIndexOf snapshot < _
    unfold themeIndexOf
    rw [hBrand]
    exact findIdx?_getD_lt (hThemed _ (List.getElem_mem hIndex)) _

theorem anchored_run {s : Studio} (h : Start s) (ops : List Operation) : Anchored (s.run ops) :=
  run_induction (P := Anchored) (fun _ op hs => anchored_perform hs op) ops s
    (anchored_of_start h)

/-! ### Checked positions -/

/-- The studio with a brand in the place of another. -/
def putBrand (s : Studio) (i : Nat) (b : Brand) : Studio :=
  { s with brands := s.brands.set i b }

/-- `activate` with its look-ups checked. -/
def activate? (s : Studio) (index : Nat) (mode : Mode) : Option Studio :=
  (s.brands[index]?).bind fun b =>
    let moved := { s with brandIndex := index, themeIndex := b.indexForMode mode }
    moved.activeTheme?.map fun t => { moved with history := s.history.reset t.tokens }

/-- `writeActive` with its look-ups checked. -/
def writeActive? (s : Studio) (now : Instant) (tokens : Tree) : Option Studio :=
  (s.brands[s.brandIndex]?).bind fun b => (b.themes[s.themeIndex]?).map fun t =>
    s.putBrand s.brandIndex
      (Brand.touch { b with themes := b.themes.set s.themeIndex { t with tokens } } now)

/-- `applySuggestion` with its look-ups checked. -/
def applySuggestion? (s : Studio) (now : Instant) (patch : Tree) : Option Studio :=
  (s.brands[s.brandIndex]?).bind fun b =>
    let patched := s.putBrand s.brandIndex
      (Brand.touch { b with themes := b.themes.map (patchTheme patch) } now)
    patched.activeTheme?.map fun t => { patched with history := s.history.push t.tokens }

/-- `deleteBrand` with its look-ups checked, for the brand at `i`. -/
def deleteBrandAt? (s : Studio) (i : Nat) : Option Studio :=
  if s.brands.length = 1 then some s
  else s.activeTheme?.bind fun t =>
    if i = s.brandIndex then (s.withoutBrand i).activate? 0 t.mode
    else some { s.withoutBrand i with brandIndex := closeGap i s.brandIndex }

/-- `deleteTheme` with its look-ups checked, for the theme at `j` of the active brand `b`. -/
def deleteThemeAt? (s : Studio) (now : Instant) (b : Brand) (j : Nat) : Option Studio :=
  if b.themes.length = 1 then some s
  else s.activeTheme?.bind fun t =>
    let rest := s.putBrand s.brandIndex
      (Brand.touch { b with themes := b.themes.eraseIdx j } now)
    if j = s.themeIndex then rest.activate? s.brandIndex t.mode
    else some { rest with themeIndex := closeGap j s.themeIndex }

/-- The studio after an operation, or nothing if a position is out of range on the way. -/
def attempt? (s : Studio) : Operation → Option Studio
  | .createBrand ids now name description => s.activeTheme?.bind fun t =>
    { s with brands := s.brands ++ [Brand.create ids now name description] }.activate?
      s.brands.length t.mode
  | .deleteBrand id => match s.indexOfBrand? id with
    | none => some s
    | some i => s.deleteBrandAt? i
  | .renameBrand now id name => match s.indexOfBrand? id with
    | none => some s
    | some i => (s.brands[i]?).map fun b => s.putBrand i (Brand.touch { b with name } now)
  | .selectBrand id => match s.indexOfBrand? id with
    | none => some s
    | some i => s.activeTheme?.bind fun t => s.activate? i t.mode
  | .addTheme id now name mode => s.activeTheme?.bind fun t => s.activeBrand?.map fun b =>
    s.putBrand s.brandIndex
      (Brand.touch { b with themes := b.themes ++ [⟨id, name, mode, t.tokens⟩] } now)
  | .deleteTheme now id => s.activeBrand?.bind fun b =>
    match b.themes.findIdx? fun t => t.id == id with
    | none => some s
    | some j => s.deleteThemeAt? now b j
  | .selectTheme id => s.activeBrand?.bind fun b =>
    match b.themes.findIdx? fun t => t.id == id with
    | none => some s
    | some j => (b.themes[j]?).map fun t =>
      { s with themeIndex := j, history := s.history.reset t.tokens }
  | .switchMode mode => s.activate? s.brandIndex mode
  | .update now path value => s.activeTheme?.bind fun t =>
    let tokens := t.tokens.set path value
    if tokens = t.tokens then some s
    else writeActive? { s with history := s.history.push tokens } now tokens
  | .replaceTokens now tokens =>
    writeActive? { s with history := s.history.push tokens } now tokens
  | .applySuggestion now patch => s.applySuggestion? now patch
  | .suggest now suggester description => match suggester description with
    | none => some s
    | some patch => s.applySuggestion? now patch
  | .undo now => match s.history.undo? with
    | none => some s
    | some h => writeActive? { s with history := h } now h.present
  | .redo now => match s.history.redo? with
    | none => some s
    | some h => writeActive? { s with history := h } now h.present

theorem set_eq_modify_of_getElem? {α : Type} {l : List α} {i : Nat} {a : α} (h : l[i]? = some a)
    (f : α → α) : l.set i (f a) = l.modify i f := by
  rw [List.modify_eq_set_getElem?, h]
  rfl

theorem putBrand_eq_modifyBrand {s : Studio} {b : Brand} (h : s.activeBrand? = some b)
    (f : Brand → Brand) : s.putBrand s.brandIndex (f b) = s.modifyBrand f := by
  rw [putBrand, modifyBrand, set_eq_modify_of_getElem? h]

theorem activate?_eq {s : Studio} (hThemed : ∀ b ∈ s.brands, b.themes ≠ []) {index : Nat}
    (hIndex : index < s.brands.length) (mode : Mode) :
    s.activate? index mode = some (s.activate index mode) := by
  have hBrand := List.getElem?_eq_getElem hIndex
  obtain ⟨t, ht⟩ := (anchored_activate hThemed hIndex mode).activeTheme?_eq_some
  have hMoved : s.activate index mode = restart { s with
      brandIndex := index
      themeIndex := s.brands[index].indexForMode mode } := by
    rw [activate, hBrand]
    rfl
  have hTheme : activeTheme? { s with
      brandIndex := index
      themeIndex := s.brands[index].indexForMode mode } = some t := by
    rw [hMoved] at ht
    exact ht
  rw [activate?, hBrand, Option.bind_some, hMoved, restart, activeTokens, hTheme]
  show Option.map _ (activeTheme? _) = _
  rw [hTheme]
  rfl

theorem Anchored.writeActive?_eq {s : Studio} (h : Anchored s) (now : Instant) (tokens : Tree) :
    s.writeActive? now tokens = some (s.writeActive now tokens) := by
  obtain ⟨b, hb, ht⟩ := h.active
  have hTheme := List.getElem?_eq_getElem ht
  rw [writeActive?, ← activeBrand?, hb, Option.bind_some, hTheme, Option.map_some,
    set_eq_modify_of_getElem? hTheme fun t => { t with tokens }]
  exact congrArg some (putBrand_eq_modifyBrand hb fun b =>
    Brand.touch { b with themes := b.themes.modify s.themeIndex fun t => { t with tokens } } now)

theorem Anchored.applySuggestion?_eq {s : Studio} (h : Anchored s) (now : Instant) (patch : Tree) :
    s.applySuggestion? now patch = some (s.applySuggestion now patch) := by
  obtain ⟨b, hb, -⟩ := h.active
  obtain ⟨t, ht⟩ := (anchored_applySuggestion h now patch).activeTheme?_eq_some
  have hPut := putBrand_eq_modifyBrand hb fun b =>
    Brand.touch { b with themes := b.themes.map (patchTheme patch) } now
  have hTheme : (s.modifyBrand fun b =>
      Brand.touch { b with themes := b.themes.map (patchTheme patch) } now).activeTheme? =
        some t := ht
  rw [applySuggestion?, ← activeBrand?, hb, Option.bind_some, hPut]
  simp only [hTheme, Option.map_some, applySuggestion, activeTokens, Option.getD_some]

theorem Anchored.deleteBrandAt?_eq {s : Studio} (h : Anchored s) {id : String} {i : Nat}
    (hi : s.indexOfBrand? id = some i) :
    s.deleteBrandAt? i = some (s.perform (.deleteBrand id)) := by
  obtain ⟨t, ht⟩ := h.activeTheme?_eq_some
  have hLength : (s.withoutBrand i).brands.length = s.brands.length - 1 :=
    List.length_eraseIdx_of_lt (indexOfBrand?_lt hi)
  have hLess := indexOfBrand?_lt hi
  have hMode : s.activeMode = t.mode := by rw [activeMode, ht]; rfl
  unfold deleteBrandAt? perform
  by_cases hOne : s.brands.length = 1
  · rw [if_pos hOne, perform?, deleteBrand, hi]
    simp only [if_pos hOne]
    rfl
  · rw [if_neg hOne, ht, Option.bind_some, perform?, deleteBrand, hi]
    simp only [if_neg hOne]
    by_cases hActive : i = s.brandIndex
    · rw [if_pos hActive, if_pos hActive, activate?_eq (h.themed_withoutBrand i) (by omega), hMode]
      rfl
    · rw [if_neg hActive, if_neg hActive]
      unfold closeGap
      split <;> rfl

theorem Anchored.deleteThemeAt?_eq {s : Studio} (h : Anchored s) {now : Instant} {id : String}
    {b : Brand} {j : Nat} (hb : s.activeBrand? = some b) (hj : s.indexOfTheme? id = some j) :
    s.deleteThemeAt? now b j = some (s.perform (.deleteTheme now id)) := by
  obtain ⟨t, ht⟩ := h.activeTheme?_eq_some
  have hMode : s.activeMode = t.mode := by rw [activeMode, ht]; rfl
  have hPut := putBrand_eq_modifyBrand hb fun b =>
    Brand.touch { b with themes := b.themes.eraseIdx j } now
  unfold deleteThemeAt? perform
  by_cases hOne : b.themes.length = 1
  · rw [if_pos hOne, perform?, deleteTheme, hj, hb]
    simp only [if_pos hOne]
    rfl
  · rw [if_neg hOne, ht, Option.bind_some, perform?, deleteTheme, hj, hb, hPut]
    simp only [if_neg hOne]
    by_cases hActive : j = s.themeIndex
    · have hIndex : s.brandIndex < (s.withoutTheme now j).brands.length := by
        show s.brandIndex < (s.brands.modify s.brandIndex _).length
        rw [List.length_modify]
        exact (List.getElem?_eq_some_iff.mp hb).1
      rw [if_pos hActive, if_pos hActive, hMode]
      exact activate?_eq (h.themed_withoutTheme hb hOne now j) hIndex t.mode
    · rw [if_neg hActive, if_neg hActive]
      unfold closeGap
      split <;> rfl

/-- **On an anchored studio no look-up by position fails.** -/
theorem Anchored.attempt?_eq {s : Studio} (h : Anchored s) (op : Operation) :
    s.attempt? op = some (s.perform op) := by
  obtain ⟨t, ht⟩ := h.activeTheme?_eq_some
  obtain ⟨b, hb, -⟩ := h.active
  have hMode : s.activeMode = t.mode := by rw [activeMode, ht]; rfl
  have hTokens : s.activeTokens = t.tokens := by rw [activeTokens, ht]; rfl
  cases op with
  | createBrand ids now name description =>
    rw [attempt?, ht, Option.bind_some, activate?_eq, ← hMode]
    · rfl
    · exact (anchored_createBrand h ids now name description).themed
    · show s.brands.length < (s.brands ++ [_]).length
      rw [List.length_append, List.length_singleton]
      omega
  | deleteBrand id =>
    rw [attempt?]
    cases hi : s.indexOfBrand? id with
    | none => simp [perform, perform?, deleteBrand, hi, Except.toOption]
    | some i => exact h.deleteBrandAt?_eq hi
  | renameBrand now id name =>
    rw [attempt?]
    cases hi : s.indexOfBrand? id with
    | none => simp [perform, perform?, renameBrand, hi, Except.toOption]
    | some i =>
      have hBrand := List.getElem?_eq_getElem (indexOfBrand?_lt hi)
      have hSet := set_eq_modify_of_getElem? hBrand fun b => Brand.touch { b with name } now
      simp only [hBrand, Option.map_some, putBrand, hSet]
      simp [perform, perform?, renameBrand, hi, Except.toOption]
  | selectBrand id =>
    rw [attempt?]
    cases hi : s.indexOfBrand? id with
    | none => simp [perform, perform?, selectBrand, hi, Except.toOption]
    | some i =>
      simp only [ht, Option.bind_some, activate?_eq h.themed (indexOfBrand?_lt hi), ← hMode]
      simp [perform, perform?, selectBrand, hi, Except.toOption]
  | addTheme id now name mode =>
    rw [attempt?, ht, Option.bind_some, hb, Option.map_some, ← hTokens]
    exact congrArg some (putBrand_eq_modifyBrand hb fun b =>
      Brand.touch { b with themes := b.themes ++ [⟨id, name, mode, s.activeTokens⟩] } now)
  | deleteTheme now id =>
    rw [attempt?, hb, Option.bind_some]
    cases hj : b.themes.findIdx? fun t => t.id == id with
    | none => simp [perform, perform?, deleteTheme, indexOfTheme?, hb, hj, Except.toOption]
    | some j => exact h.deleteThemeAt?_eq hb (by rw [indexOfTheme?, hb, Option.bind_some, hj])
  | selectTheme id =>
    rw [attempt?, hb, Option.bind_some]
    cases hj : b.themes.findIdx? fun t => t.id == id with
    | none => simp [perform, perform?, selectTheme, indexOfTheme?, hb, hj, Except.toOption]
    | some j =>
      have hLess : j < b.themes.length := (List.findIdx?_eq_some_iff_getElem.mp hj).1
      have hTheme := List.getElem?_eq_getElem hLess
      have hMoved : activeTheme? { s with themeIndex := j } = some b.themes[j] := by
        show s.activeBrand?.bind _ = _
        rw [hb, Option.bind_some, hTheme]
      simp only [hTheme, Option.map_some]
      simp [perform, perform?, selectTheme, indexOfTheme?, hb, hj, Except.toOption, restart,
        activeTokens, hMoved]
  | switchMode mode =>
    exact activate?_eq h.themed (List.getElem?_eq_some_iff.mp hb).1 mode
  | update now path value =>
    rw [attempt?, ht, Option.bind_some, ← hTokens]
    simp only [perform, perform?, update?]
    split
    · rfl
    · exact (h.withHistory _).writeActive?_eq now _
  | replaceTokens now tokens => exact (h.withHistory _).writeActive?_eq now tokens
  | applySuggestion now patch => exact h.applySuggestion?_eq now patch
  | suggest now suggester description =>
    rw [attempt?]
    cases hPatch : suggester description with
    | none => simp [perform, perform?, suggest?, hPatch]
    | some patch => simp [perform, perform?, suggest?, hPatch, h.applySuggestion?_eq now patch]
  | undo now =>
    rw [attempt?]
    cases hUndo : s.history.undo? with
    | none => simp [perform, perform?, undo?, hUndo]
    | some past =>
      simp only [(h.withHistory past).writeActive?_eq now past.present]
      simp [perform, perform?, undo?, hUndo]
  | redo now =>
    rw [attempt?]
    cases hRedo : s.history.redo? with
    | none => simp [perform, perform?, redo?, hRedo]
    | some next =>
      simp only [(h.withHistory next).writeActive?_eq now next.present]
      simp [perform, perform?, redo?, hRedo]

/-! ### The statement -/

/-- **There is always an active theme.** After any operations there is a brand, every brand has a
theme, the positions of the active brand and the active theme lie within their lists, and whatever
operation comes next, none of its look-ups by position is out of range. -/
theorem active_theme_exists {start : Studio} (hStart : Start start) (ops : List Operation) :
    let s := start.run ops
    s.brands ≠ [] ∧ (∀ b ∈ s.brands, b.themes ≠ []) ∧
      (∃ b, s.activeBrand? = some b ∧ s.brandIndex < s.brands.length ∧
        s.themeIndex < b.themes.length) ∧
      (∃ t, s.activeTheme? = some t) ∧ ∀ op, s.attempt? op = some (s.perform op) := by
  intro s
  have h : Anchored s := anchored_run hStart ops
  obtain ⟨b, hb, ht⟩ := h.active
  have hIndex : s.brandIndex < s.brands.length := (List.getElem?_eq_some_iff.mp hb).1
  refine ⟨?_, h.themed, ⟨b, hb, hIndex, ht⟩, h.activeTheme?_eq_some, h.attempt?_eq⟩
  exact List.length_pos_iff.mp (Nat.lt_of_le_of_lt (Nat.zero_le _) hIndex)

/-- After the light theme of a new studio is deleted, the dark one is active at the first
position. -/
theorem active_theme_exists_after_deletion :
    let start := Studio.create ⟨"b", "l", "d"⟩ Instant.epoch
    let s := start.run [.deleteTheme Instant.epoch "l"]
    Start start ∧ s.activeThemeName = "Dark" ∧ s.brands ≠ [] ∧
      (∀ b ∈ s.brands, b.themes ≠ []) ∧
      (∃ b, s.activeBrand? = some b ∧ s.brandIndex < s.brands.length ∧
        s.themeIndex < b.themes.length) ∧
      (∃ t, s.activeTheme? = some t) ∧ ∀ op, s.attempt? op = some (s.perform op) := by
  intro start s
  have hStart : Start start := .create _ _
  exact ⟨hStart, by decide, active_theme_exists hStart [.deleteTheme Instant.epoch "l"]⟩

end DesignSystem.Studio
