import DesignSystem.Proofs.Tree.Edits
/-!
# Darkening again

The dark pass makes edits that it takes from the tree itself. They depend on nothing but the neutral
steps, which none of them changes, and their paths are apart from each other; so to darken a tree
again has no effect (`darken_darken`).

What the pass leaves in a place of the root depends on what the place held (`place_darken_congr`):
the roles are among the colors, and so are the steps that they follow. A merge replaces whole places,
and what it keeps is dark already if the tree was; so it makes no difference whether a tree was
darkened before a merge, if it is darkened afterwards (`darken_merge`).
-/

namespace DesignSystem.Tree

variable {s t : Tree} {key : String}

/-- The path of a color role. -/
def rolePath (role : String) : String :=
  "color." ++ role

/-- The paths that the dark pass writes to. -/
def darkPaths : List String :=
  darkRoles.map (fun e => rolePath e.1) ++ ["effect.shadow.sm", "effect.shadow.md"]

/-- The edits of the color roles. -/
def roleEdits (t : Tree) : List (String × String) :=
  darkRoles.map fun e => (rolePath e.1, t.darkValue e.2)

/-- The edits of the shadows. -/
def shadowEdits : List (String × String) :=
  [("effect.shadow.sm", darkShadowSmall), ("effect.shadow.md", darkShadowMedium)]

theorem darkEdits_eq (t : Tree) : t.darkEdits = t.roleEdits ++ shadowEdits := rfl

theorem paths_darkEdits (t : Tree) : t.darkEdits.map Prod.fst = darkPaths := rfl

theorem apartAll_darkPaths : ApartAll darkPaths := by
  decide

theorem apartAll_darkEdits (t : Tree) : ApartAll (t.darkEdits.map Prod.fst) := by
  rw [paths_darkEdits]
  exact apartAll_darkPaths

theorem nodup_paths_darkEdits (t : Tree) : (t.darkEdits.map Prod.fst).Nodup := by
  rw [paths_darkEdits]
  decide

theorem mem_darkPaths {e : String × String} (h : e ∈ t.darkEdits) : e.1 ∈ darkPaths :=
  paths_darkEdits t ▸ List.mem_map_of_mem h

/-- No neutral step is written to. -/
theorem neutralPath_not_mem : ∀ e ∈ darkRoles, neutralPath e.2 ∉ darkPaths := by
  decide

/-- The edits depend on nothing but the neutral steps. -/
theorem darkEdits_congr
    (h : ∀ e ∈ darkRoles, s.token? (neutralPath e.2) = t.token? (neutralPath e.2)) :
    s.darkEdits = t.darkEdits := by
  have hRoles : s.roleEdits = t.roleEdits := by
    refine List.map_congr_left fun e he => ?_
    rw [darkValue, darkValue, h e he]
  rw [darkEdits_eq, darkEdits_eq, hRoles]

theorem token?_darken_of_ne (t : Tree) {path : String} (h : path ∉ darkPaths) :
    t.darken.token? path = t.token? path :=
  token?_setAll_of_not_mem t h

/-! ### Darkening again -/

theorem darkEdits_darken (t : Tree) : t.darken.darkEdits = t.darkEdits :=
  darkEdits_congr fun e he => token?_darken_of_ne t (neutralPath_not_mem e he)

/-- **To darken a tree again has no effect.** -/
theorem darken_darken (t : Tree) : t.darken.darken = t.darken := by
  calc t.darken.darken = t.darken.setAll t.darken.darkEdits := rfl
    _ = (t.setAll t.darkEdits).setAll t.darkEdits := by rw [darkEdits_darken]; rfl
    _ = t.darken := setAll_setAll t (apartAll_darkEdits t)

/-! ### Darkening after a merge -/

/-- **What the dark pass leaves in a place depends on what the place held.** -/
theorem place_darken_congr (h : s.place key = t.place key) :
    s.darken.place key = t.darken.place key := by
  by_cases hKey : key = "color"
  · -- the neutral steps that the roles follow are in this place
    subst hKey
    have hNeutral : ∀ e ∈ darkRoles, (Text.cut '.' (neutralPath e.2)).head? = some "color" := by
      decide
    rw [darken, darken, darkEdits_congr fun e he => token?_congr h (hNeutral e he)]
    exact place_setAll_congr h t.darkEdits
  · have hRoles : ∀ e ∈ darkRoles, (Text.cut '.' (rolePath e.1)).head? = some "color" := by
      decide
    have hSame : ∀ u : Tree, (u.setAll u.roleEdits).place key = u.place key := by
      intro u
      refine place_setAll_of_ne u fun e he hHead => ?_
      obtain ⟨d, hd, rfl⟩ := List.mem_map.mp he
      rw [hRoles d hd] at hHead
      exact hKey (Option.some.inj hHead).symm
    rw [darken, darken, darkEdits_eq, darkEdits_eq, setAll_append, setAll_append]
    refine place_setAll_congr ?_ shadowEdits
    rw [hSame, hSame, h]

/-- **It makes no difference whether a tree was dark before a merge**, if it is darkened afterwards. -/
theorem darken_merge (t patch : Tree) : (t.darken.merge patch).darken = (t.merge patch).darken := by
  refine ext_place fun key => ?_
  cases hPatch : patch.place key with
  | some n =>
    refine place_darken_congr ?_
    rw [place_merge, place_merge, hPatch, Option.some_or, Option.some_or]
  | none =>
    have hKept : ∀ u : Tree, (u.merge patch).place key = u.place key := by
      intro u
      rw [place_merge, hPatch, Option.none_or]
    rw [place_darken_congr (hKept t.darken), darken_darken, ← place_darken_congr (hKept t)]

end DesignSystem.Tree
