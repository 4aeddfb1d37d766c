import DesignSystem.Proofs.Studio.Identifiers
import DesignSystem.Proofs.Studio.Recall
/-!
# Opening a studio from its own snapshot

A snapshot remembers the active brand and theme by their identifiers, and opening it makes the first
brand and the first theme in it active that have these. So the studio's own snapshot leads back to
the same place if nothing in front of that place has the same identifier (`Foremost`). Distinct
identifiers are enough for this, but not needed: a studio that was opened from a snapshot is at such
a place already, whatever identifiers the snapshot repeats, and writing tokens does not lead away
from it.
-/

namespace DesignSystem.Studio

variable {s : Studio}

/-- The identifier of the active brand means the active brand, and that of the active theme the
active theme. -/
structure Foremost (s : Studio) : Prop where
  brand : ∀ b, s.activeBrand? = some b → s.indexOfBrand? b.id = some s.brandIndex
  theme : ∀ t, s.activeTheme? = some t → s.indexOfTheme? t.id = some s.themeIndex

theorem Foremost.brandIndexOf_snapshot (h : Foremost s) {b : Brand}
    (hBrand : s.activeBrand? = some b) : brandIndexOf s.snapshot = s.brandIndex := by
  show (s.indexOfBrand? ((s.activeBrand?.map Brand.id).getD "")).getD 0 = _
  rw [hBrand, Option.map_some, Option.getD_some, h.brand b hBrand, Option.getD_some]

theorem Foremost.themeIndexOf_snapshot (h : Foremost s) {b : Brand} {t : Theme}
    (hBrand : s.activeBrand? = some b) (hTheme : s.activeTheme? = some t) :
    themeIndexOf s.snapshot = s.themeIndex := by
  have hIndex := h.theme t hTheme
  rw [indexOfTheme?, hBrand, Option.bind_some] at hIndex
  have hThemes : (s.brands[s.brandIndex]?.map Brand.themes).getD [] = b.themes := by
    rw [activeBrand?] at hBrand
    rw [hBrand, Option.map_some, Option.getD_some]
  rw [themeIndexOf, h.brandIndexOf_snapshot hBrand]
  show (((s.brands[s.brandIndex]?.map Brand.themes).getD []).findIdx? fun a =>
    a.id == (s.activeTheme?.map Theme.id).getD "").getD 0 = _
  rw [hThemes, hTheme, Option.map_some, Option.getD_some, hIndex, Option.getD_some]

/-- **The studio's own snapshot leads back to its place.** -/
theorem Foremost.ofSnapshot_snapshot (h : Foremost s) (hAnchored : Anchored s) :
    ofSnapshot s.snapshot = .ok (openAt s.brands s.brandIndex s.themeIndex) := by
  obtain ⟨b, hBrand, -⟩ := hAnchored.active
  obtain ⟨t, hTheme⟩ := hAnchored.activeTheme?_eq_some
  rw [ofSnapshot_eq_ok_iff, h.brandIndexOf_snapshot hBrand, h.themeIndexOf_snapshot hBrand hTheme]
  exact ⟨List.ne_nil_of_mem (List.mem_of_getElem? hBrand), hAnchored.themed, rfl⟩

/-! ### Which studios are at such a place -/

theorem foremost_of_distinct {used : List String} (h : Distinct used s.brands) : Foremost s where
  brand b hBrand := findIdx?_of_nodup h.ids hBrand
  theme t hTheme := by
    obtain ⟨b, hBrand, hTheme⟩ := Option.bind_eq_some_iff.mp hTheme
    rw [indexOfTheme?, hBrand, Option.bind_some]
    exact findIdx?_of_nodup (h.themeIds b (List.mem_of_getElem? hBrand)) hTheme

/-- The first entry with some key, or else the very first entry, is the first with its own key. -/
theorem findIdx?_key_of_first {α : Type} {l : List α} {f : α → String} {key : String} {a : α}
    (h : l[(l.findIdx? fun b => f b == key).getD 0]? = some a) :
    l.findIdx? (fun b => f b == f a) = some ((l.findIdx? fun b => f b == key).getD 0) := by
  cases hFind : l.findIdx? fun b => f b == key with
  | none =>
    rw [hFind, Option.getD_none] at h
    cases l with
    | nil => cases h
    | cons b l =>
      cases h
      rw [List.findIdx?_cons, if_pos (beq_self_eq_true _)]
      rfl
  | some i =>
    rw [hFind, Option.getD_some] at h
    obtain ⟨hLess, hKey, -⟩ := List.findIdx?_eq_some_iff_getElem.mp hFind
    have hEntry : l[i] = a := Option.some.inj ((List.getElem?_eq_getElem hLess).symm.trans h)
    rw [← hEntry, eq_of_beq hKey]
    exact hFind

/-- **A studio that was opened from a snapshot.** -/
theorem foremost_of_ofSnapshot {snapshot : Snapshot} (h : ofSnapshot snapshot = .ok s) :
    Foremost s := by
  obtain ⟨-, -, rfl⟩ := ofSnapshot_eq_ok_iff.mp h
  constructor
  · intro b hBrand
    exact findIdx?_key_of_first hBrand
  · intro t hTheme
    obtain ⟨b, hBrand, hTheme⟩ := Option.bind_eq_some_iff.mp hTheme
    have hThemes : (snapshot.brands[brandIndexOf snapshot]?.map Brand.themes).getD [] =
        b.themes := by
      have hEntry : snapshot.brands[brandIndexOf snapshot]? = some b := hBrand
      rw [hEntry, Option.map_some, Option.getD_some]
    rw [indexOfTheme?, hBrand, Option.bind_some]
    have hIndex : themeIndexOf snapshot =
        (b.themes.findIdx? fun t => t.id == snapshot.activeThemeId).getD 0 := by
      rw [themeIndexOf, hThemes]
    change b.themes[themeIndexOf snapshot]? = some t at hTheme
    show _ = some (themeIndexOf snapshot)
    rw [hIndex] at hTheme ⊢
    exact findIdx?_key_of_first hTheme

/-- **A new studio.** -/
theorem foremost_create (ids : Brand.Ids) (now : Instant) : Foremost (create ids now) where
  brand b hBrand := by
    cases hBrand
    show List.findIdx? _ [_] = some 0
    rw [List.findIdx?_cons, if_pos (beq_self_eq_true _)]
  theme t hTheme := by
    cases hTheme
    show List.findIdx? (fun t : Theme => t.id == ids.light)
      [⟨ids.light, "Light", .light, Tree.light⟩, ⟨ids.dark, "Dark", .dark, Tree.dark⟩] = some 0
    rw [List.findIdx?_cons, if_pos (beq_self_eq_true _)]

theorem foremost_of_start (h : Start s) : Foremost s := by
  cases h with
  | create ids now => exact foremost_create ids now
  | ofSnapshot h => exact foremost_of_ofSnapshot h

/-! ### Writing tokens -/

theorem indexOfBrand?_writeActive (s : Studio) (now : Instant) (tokens : Tree) (id : String) :
    (s.writeActive now tokens).indexOfBrand? id = s.indexOfBrand? id := by
  have hIds : (s.writeActive now tokens).brands.map Brand.id = s.brands.map Brand.id :=
    map_modify_of_eq (fun b => by rfl) s.brands s.brandIndex
  have hFind := congrArg (List.findIdx? (· == id)) hIds
  rwa [List.findIdx?_map, List.findIdx?_map] at hFind

theorem indexOfTheme?_writeActive (s : Studio) (now : Instant) (tokens : Tree) (id : String) :
    (s.writeActive now tokens).indexOfTheme? id = s.indexOfTheme? id := by
  rw [indexOfTheme?, indexOfTheme?, writeActive, activeBrand?_modifyBrand]
  cases s.activeBrand? with
  | none => rfl
  | some b =>
    have hIds : (b.themes.modify s.themeIndex fun t => { t with tokens }).map Theme.id =
        b.themes.map Theme.id := map_modify_of_eq (fun t => by rfl) b.themes s.themeIndex
    have hFind := congrArg (List.findIdx? (· == id)) hIds
    rwa [List.findIdx?_map, List.findIdx?_map] at hFind

theorem Foremost.writeActive (h : Foremost s) (now : Instant) (tokens : Tree) :
    Foremost (s.writeActive now tokens) where
  brand b hBrand := by
    rw [Studio.writeActive, activeBrand?_modifyBrand] at hBrand
    obtain ⟨old, hOld, rfl⟩ := Option.map_eq_some_iff.mp hBrand
    rw [indexOfBrand?_writeActive]
    exact h.brand old hOld
  theme t hTheme := by
    rw [activeTheme?_eq, active_writeActive, theme?_writeActive] at hTheme
    obtain ⟨old, hOld, rfl⟩ := Option.map_eq_some_iff.mp hTheme
    rw [indexOfTheme?_writeActive, if_pos rfl]
    exact h.theme old hOld

theorem Foremost.withHistory (h : Foremost s) (history : History Tree) :
    Foremost { s with history } := ⟨h.brand, h.theme⟩

/-- Setting a token in a studio, whether that changes the tree or not. -/
theorem activeTokens_update? (h : Anchored s) (now : Instant) (path value : String) :
    ((s.update? now path value).getD s).activeTokens = s.activeTokens.set path value := by
  rw [update?]
  split
  · rename_i hSame
    exact hSame.symm
  · exact activeTokens_writeActive (h.withHistory _) now _

theorem Foremost.update? (h : Foremost s) (now : Instant) (path value : String) :
    Foremost ((s.update? now path value).getD s) := by
  rw [Studio.update?]
  split
  · exact h
  · exact (h.withHistory _).writeActive now _

end DesignSystem.Studio
