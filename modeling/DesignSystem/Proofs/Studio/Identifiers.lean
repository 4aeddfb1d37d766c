import DesignSystem.Proofs.Studio.Session
/-!
# Identifiers stay distinct

A snapshot remembers the active brand and theme by their identifiers, which finds them again only if
no other has the same. Identifiers come from outside: creating a brand takes three and adding a
theme takes one. If all that a session takes are different, then so are those of its brands, and
those of the themes of every brand (`distinct_run`).

`Distinct used` also keeps in mind where the identifiers come from, so that one that is not among
those used before is new.
-/

namespace DesignSystem

/-- The identifiers of a new brand and its themes. -/
def Brand.Ids.all (ids : Brand.Ids) : List String :=
  [ids.brand, ids.light, ids.dark]

namespace Studio

/-- The identifiers that an operation takes. -/
def Operation.taken : Operation → List String
  | .createBrand ids _ _ _ => ids.all
  | .addTheme id _ _ _ => [id]
  | _ => []

/-- Brands and the themes of each brand have different identifiers, all among those in use. -/
structure Distinct (used : List String) (brands : List Brand) : Prop where
  ids : (brands.map Brand.id).Nodup
  themeIds : ∀ b ∈ brands, (b.themes.map Theme.id).Nodup
  known : ∀ b ∈ brands, b.id ∈ used ∧ ∀ t ∈ b.themes, t.id ∈ used

theorem Distinct.mono {used more : List String} {brands : List Brand} (h : Distinct used brands)
    (hMore : used ⊆ more) : Distinct more brands := by
  refine ⟨h.ids, h.themeIds, fun b hb => ?_⟩
  obtain ⟨hId, hThemes⟩ := h.known b hb
  exact ⟨hMore hId, fun t ht => hMore (hThemes t ht)⟩

/-! ### Changes of the brands -/

theorem mem_modify {α : Type} {l : List α} {i : Nat} {f : α → α} {a : α} (h : a ∈ l.modify i f) :
    a ∈ l ∨ ∃ b ∈ l, a = f b := by
  obtain ⟨k, hk⟩ := List.mem_iff_getElem?.mp h
  rw [List.getElem?_modify] at hk
  obtain ⟨b, hb, rfl⟩ := Option.map_eq_some_iff.mp hk
  have hMem : b ∈ l := List.mem_iff_getElem?.mpr ⟨k, hb⟩
  split
  · exact .inr ⟨b, hMem, rfl⟩
  · exact .inl hMem

theorem map_modify_of_eq {α β : Type} {g : α → β} {f : α → α} (h : ∀ a, g (f a) = g a) (l : List α)
    (i : Nat) : (l.modify i f).map g = l.map g := by
  refine List.ext_getElem? fun k => ?_
  rw [List.getElem?_map, List.getElem?_modify, List.getElem?_map]
  cases l[k]? with
  | none => rfl
  | some a =>
    show some (g (if i = k then f a else a)) = some (g a)
    split
    · rw [h]
    · rfl

/-- A change of one brand that keeps its identifier. -/
theorem Distinct.modify {used more : List String} {brands : List Brand} (h : Distinct used brands)
    (hMore : used ⊆ more) {f : Brand → Brand} (hId : ∀ b, (f b).id = b.id)
    (hThemes : ∀ b ∈ brands, ((f b).themes.map Theme.id).Nodup ∧ ∀ t ∈ (f b).themes, t.id ∈ more)
    (i : Nat) : Distinct more (brands.modify i f) := by
  have hOld := h.mono hMore
  refine ⟨?_, fun b hb => ?_, fun b hb => ?_⟩
  · rw [map_modify_of_eq hId]
    exact h.ids
  · rcases mem_modify hb with hb | ⟨a, ha, rfl⟩
    · exact h.themeIds b hb
    · exact (hThemes a ha).1
  · rcases mem_modify hb with hb | ⟨a, ha, rfl⟩
    · exact hOld.known b hb
    · rw [hId]
      exact ⟨(hOld.known a ha).1, (hThemes a ha).2⟩

/-- A change of one brand that may leave out themes, but neither adds nor renames any. -/
theorem Distinct.modify_sublist {used : List String} {brands : List Brand}
    (h : Distinct used brands) {f : Brand → Brand} (hId : ∀ b, (f b).id = b.id)
    (hThemes : ∀ b, ((f b).themes.map Theme.id).Sublist (b.themes.map Theme.id)) (i : Nat) :
    Distinct used (brands.modify i f) := by
  refine h.modify (fun _ hx => hx) hId (fun b hb => ⟨(h.themeIds b hb).sublist (hThemes b), ?_⟩) i
  intro t ht
  have hMem := (hThemes b).subset (List.mem_map.mpr ⟨t, ht, rfl⟩)
  obtain ⟨t', ht', hEq⟩ := List.mem_map.mp hMem
  rw [← hEq]
  exact (h.known b hb).2 t' ht'

theorem Distinct.eraseIdx {used : List String} {brands : List Brand} (h : Distinct used brands)
    (i : Nat) : Distinct used (brands.eraseIdx i) := by
  refine ⟨?_, fun b hb => ?_, fun b hb => ?_⟩
  · exact h.ids.sublist ((List.eraseIdx_sublist brands i).map Brand.id)
  · exact h.themeIds b (List.mem_of_mem_eraseIdx hb)
  · exact h.known b (List.mem_of_mem_eraseIdx hb)

/-- A new brand with new identifiers. -/
theorem Distinct.create {used : List String} {brands : List Brand} (h : Distinct used brands)
    {ids : Brand.Ids} (hFresh : (used ++ ids.all).Nodup) (now : Instant)
    (name description : String) :
    Distinct (used ++ ids.all) (brands ++ [Brand.create ids now name description]) := by
  obtain ⟨-, hIds, hNew⟩ := List.nodup_append.mp hFresh
  have hBrand : ids.brand ∈ ids.all := List.mem_cons_self
  refine ⟨?_, fun b hb => ?_, fun b hb => ?_⟩
  · rw [List.map_append, List.nodup_append]
    refine ⟨h.ids, List.pairwise_singleton .., ?_⟩
    intro a ha c hc
    obtain ⟨b, hb, rfl⟩ := List.mem_map.mp ha
    rw [List.map_singleton, List.mem_singleton] at hc
    rw [hc]
    exact hNew _ (h.known b hb).1 _ hBrand
  · rcases List.mem_append.mp hb with hb | hb
    · exact h.themeIds b hb
    · rw [List.mem_singleton.mp hb]
      exact (List.nodup_cons.mp hIds).2
  · rcases List.mem_append.mp hb with hb | hb
    · exact (h.mono (List.subset_append_left ..)).known b hb
    · rw [List.mem_singleton.mp hb]
      have hAll : ids.all ⊆ used ++ ids.all := List.subset_append_right ..
      refine ⟨hAll hBrand, fun t ht => hAll ?_⟩
      have hTheme : t.id ∈ [ids.light, ids.dark] := List.mem_map.mpr ⟨t, ht, rfl⟩
      exact List.mem_cons_of_mem _ hTheme

/-- A new theme with a new identifier in one brand. -/
theorem Distinct.addTheme {used : List String} {brands : List Brand} (h : Distinct used brands)
    {t : Theme} (hFresh : t.id ∉ used) {f : Brand → Brand} (hId : ∀ b, (f b).id = b.id)
    (hThemes : ∀ b, (f b).themes = b.themes ++ [t]) (i : Nat) :
    Distinct (used ++ [t.id]) (brands.modify i f) := by
  refine h.modify (List.subset_append_left ..) hId (fun b hb => ?_) i
  rw [hThemes]
  constructor
  · rw [List.map_append, List.nodup_append]
    refine ⟨h.themeIds b hb, List.pairwise_singleton .., ?_⟩
    intro a ha c hc hEq
    obtain ⟨t', ht', rfl⟩ := List.mem_map.mp ha
    rw [List.map_singleton, List.mem_singleton] at hc
    exact hFresh (hc ▸ hEq ▸ (h.known b hb).2 t' ht')
  · intro t' ht'
    rcases List.mem_append.mp ht' with ht' | ht'
    · exact List.mem_append_left _ ((h.known b hb).2 t' ht')
    · rw [List.mem_singleton.mp ht']
      exact List.mem_append_right _ List.mem_cons_self

/-! ### Operations -/

/-- Writing a tree into the active theme keeps identifiers. -/
theorem Distinct.writeActive {used : List String} {s : Studio} (h : Distinct used s.brands)
    (now : Instant) (tokens : Tree) : Distinct used (s.writeActive now tokens).brands := by
  refine h.modify_sublist ?_ ?_ s.brandIndex
  · intro b
    rfl
  · intro b
    show ((b.themes.modify s.themeIndex fun t => { t with tokens }).map Theme.id).Sublist _
    have hSame : ∀ t : Theme, Theme.id { t with tokens } = t.id := fun _ => rfl
    exact (map_modify_of_eq hSame b.themes s.themeIndex) ▸ List.Sublist.refl _

theorem Distinct.applySuggestion {used : List String} {s : Studio} (h : Distinct used s.brands)
    (now : Instant) (patch : Tree) : Distinct used (s.applySuggestion now patch).brands := by
  refine h.modify_sublist ?_ ?_ s.brandIndex
  · intro b
    rfl
  · intro b
    show ((b.themes.map (patchTheme patch)).map Theme.id).Sublist _
    rw [List.map_map]
    exact List.Sublist.refl _

/-- **Every operation keeps identifiers distinct**, if those that it takes are new. -/
theorem distinct_perform {used : List String} {s : Studio} (h : Distinct used s.brands)
    (op : Operation) (hFresh : (used ++ op.taken).Nodup) :
    Distinct (used ++ op.taken) (s.perform op).brands := by
  have hMono : used ⊆ used ++ op.taken := List.subset_append_left ..
  cases hOp : s.perform? op with
  | none =>
    rw [perform_of_none hOp]
    exact h.mono hMono
  | some s' =>
    rw [perform_of_some hOp]
    cases op with
    | createBrand ids now name description =>
      cases hOp
      exact h.create hFresh now name description
    | deleteBrand id =>
      obtain ⟨i, -, -, ⟨-, rfl⟩ | ⟨-, rfl⟩⟩ := perform?_deleteBrand hOp
      · exact (h.eraseIdx i).mono hMono
      · exact (h.eraseIdx i).mono hMono
    | renameBrand now id name =>
      obtain ⟨i, -, rfl⟩ := perform?_renameBrand hOp
      refine Distinct.mono (h.modify_sublist ?_ ?_ i) hMono
      · intro b
        rfl
      · intro b
        exact List.Sublist.refl _
    | selectBrand id =>
      obtain ⟨i, -, rfl⟩ := perform?_selectBrand hOp
      exact h.mono hMono
    | addTheme id now name mode =>
      cases hOp
      have hNew : id ∉ used := by
        intro hUsed
        exact (List.nodup_append.mp hFresh).2.2 id hUsed id List.mem_cons_self rfl
      refine Distinct.addTheme (t := ⟨id, name, mode, s.activeTokens⟩) h hNew ?_ ?_ s.brandIndex
      · intro b
        rfl
      · intro b
        rfl
    | deleteTheme now id =>
      obtain ⟨j, b, -, -, -, hs⟩ := perform?_deleteTheme hOp
      have hLeft : Distinct used (s.withoutTheme now j).brands := by
        refine h.modify_sublist ?_ ?_ s.brandIndex
        · intro b
          rfl
        · intro b
          exact (List.eraseIdx_sublist b.themes j).map Theme.id
      rcases hs with ⟨-, rfl⟩ | ⟨-, rfl⟩
      · exact hLeft.mono hMono
      · exact hLeft.mono hMono
    | selectTheme id =>
      obtain ⟨j, -, rfl⟩ := perform?_selectTheme hOp
      exact h.mono hMono
    | switchMode mode =>
      cases hOp
      exact h.mono hMono
    | update now path value =>
      rw [perform?_update hOp]
      exact (h.writeActive now _).mono hMono
    | replaceTokens now tokens =>
      cases hOp
      exact (h.writeActive now tokens).mono hMono
    | applySuggestion now patch =>
      cases hOp
      exact (h.applySuggestion now patch).mono hMono
    | suggest now suggester description =>
      obtain ⟨patch, -, rfl⟩ := perform?_suggest hOp
      exact (h.applySuggestion now patch).mono hMono
    | undo now =>
      obtain ⟨past, -, rfl⟩ := perform?_undo hOp
      exact (h.writeActive now _).mono hMono
    | redo now =>
      obtain ⟨next, -, rfl⟩ := perform?_redo hOp
      exact (h.writeActive now _).mono hMono

/-- **A session whose identifiers are all new keeps them distinct.** -/
theorem distinct_run (ops : List Operation) {used : List String} {s : Studio}
    (h : Distinct used s.brands) (hFresh : (used ++ ops.flatMap Operation.taken).Nodup) :
    Distinct (used ++ ops.flatMap Operation.taken) (s.run ops).brands := by
  induction ops generalizing used s with
  | nil =>
    rw [List.flatMap_nil, List.append_nil]
    exact h
  | cons op ops ih =>
    rw [List.flatMap_cons, ← List.append_assoc] at hFresh ⊢
    have hOp := (List.nodup_append.mp hFresh).1
    exact ih (distinct_perform h op hOp) hFresh

theorem distinct_create {ids : Brand.Ids} (hFresh : ids.all.Nodup) (now : Instant) :
    Distinct ids.all (create ids now).brands := by
  have hNone : Distinct [] [] := by
    refine ⟨List.nodup_nil, ?_, ?_⟩
    · intro b hb
      cases hb
    · intro b hb
      cases hb
  have hOne := hNone.create hFresh now defaultBrandName "The built-in design system"
  rw [List.nil_append, List.nil_append] at hOne
  exact hOne

/-! ### Finding by identifier -/

/-- An entry with an identifier of its own is found at its position. -/
theorem findIdx?_of_nodup {α : Type} {l : List α} {f : α → String} (h : (l.map f).Nodup) {i : Nat}
    {a : α} (hi : l[i]? = some a) : l.findIdx? (fun b => f b == f a) = some i := by
  induction l generalizing i with
  | nil => cases hi
  | cons b l ih =>
    obtain ⟨hNew, hRest⟩ := List.nodup_cons.mp h
    rw [List.findIdx?_cons]
    cases i with
    | zero =>
      cases hi
      rw [if_pos (beq_self_eq_true _)]
    | succ i =>
      have ha : l[i]? = some a := hi
      have hOther : f b ≠ f a := by
        intro hEq
        exact hNew (List.mem_map.mpr ⟨a, List.mem_of_getElem? ha, hEq.symm⟩)
      rw [if_neg (fun hEq => hOther (eq_of_beq hEq)), ih hRest ha]
      rfl

end Studio

end DesignSystem
