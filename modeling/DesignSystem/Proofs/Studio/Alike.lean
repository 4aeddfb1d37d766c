import DesignSystem.Proofs.Studio.Session
import Mathlib.Data.List.InsertIdx
/-!
# Studios that differ in times

Doing the same at another time leaves other time stamps, and opening a studio again leaves it without
its history. `Alike` is what two studios then still have in common. Operations on brands look at
nothing else: of two alike studios they make alike ones, or are refused by both
(`Alike.deleteBrand` and the statements around it).
-/

namespace DesignSystem

/-- The brand without its times. -/
def Brand.timeless (b : Brand) : Brand :=
  { b with createdAt := Instant.epoch, updatedAt := Instant.epoch }

/-- The snapshot without the times of its brands. -/
def Snapshot.timeless (s : Snapshot) : Snapshot :=
  { s with brands := s.brands.map Brand.timeless }

namespace Studio

/-- The studios have the same brands but for their times, and the same theme is active. -/
structure Alike (s s' : Studio) : Prop where
  brands : s.brands.map Brand.timeless = s'.brands.map Brand.timeless
  brandIndex : s.brandIndex = s'.brandIndex
  themeIndex : s.themeIndex = s'.themeIndex

variable {s s' s'' : Studio}

theorem Alike.refl (s : Studio) : Alike s s :=
  ⟨rfl, rfl, rfl⟩

theorem Alike.symm (h : Alike s s') : Alike s' s :=
  ⟨h.brands.symm, h.brandIndex.symm, h.themeIndex.symm⟩

theorem Alike.trans (h : Alike s s') (h' : Alike s' s'') : Alike s s'' :=
  ⟨h.brands.trans h'.brands, h.brandIndex.trans h'.brandIndex, h.themeIndex.trans h'.themeIndex⟩

theorem alike_openAt (s : Studio) : Alike (openAt s.brands s.brandIndex s.themeIndex) s :=
  ⟨rfl, rfl, rfl⟩

/-! ### Looking at alike studios -/

/-- What does not depend on times is the same of all brands. -/
theorem Alike.map_eq {α : Type} (h : Alike s s') {g : Brand → α} (hg : ∀ b, g b.timeless = g b) :
    s.brands.map g = s'.brands.map g := by
  have hComp : g = g ∘ Brand.timeless := funext fun b => (hg b).symm
  rw [hComp, ← List.map_map, ← List.map_map, h.brands]

theorem Alike.length_eq (h : Alike s s') : s.brands.length = s'.brands.length := by
  have hLength := congrArg List.length h.brands
  rwa [List.length_map, List.length_map] at hLength

theorem Alike.getElem?_map_eq {α : Type} (h : Alike s s') {g : Brand → α}
    (hg : ∀ b, g b.timeless = g b) (i : Nat) : s.brands[i]?.map g = s'.brands[i]?.map g := by
  rw [← List.getElem?_map, ← List.getElem?_map, h.map_eq hg]

theorem Alike.find?_map_eq (h : Alike s s') {p : Brand → Bool} (hp : ∀ b, p b.timeless = p b) :
    (s.brands.find? p).map Brand.timeless = (s'.brands.find? p).map Brand.timeless := by
  have hComp : p ∘ Brand.timeless = p := funext hp
  have hFind := congrArg (List.find? p) h.brands
  rwa [List.find?_map, List.find?_map, hComp] at hFind

theorem Alike.indexOfBrand?_eq (h : Alike s s') (id : String) :
    s.indexOfBrand? id = s'.indexOfBrand? id := by
  have hIds := congrArg (List.findIdx? (· == id)) (h.map_eq (g := Brand.id) fun _ => rfl)
  rwa [List.findIdx?_map, List.findIdx?_map] at hIds

theorem Alike.activeBrand?_map_eq {α : Type} (h : Alike s s') {g : Brand → α}
    (hg : ∀ b, g b.timeless = g b) : s.activeBrand?.map g = s'.activeBrand?.map g := by
  rw [activeBrand?, activeBrand?, h.brandIndex, h.getElem?_map_eq hg]

theorem Alike.activeTheme?_eq (h : Alike s s') : s.activeTheme? = s'.activeTheme? := by
  have hJoin : ∀ u : Studio,
      u.activeTheme? = (u.activeBrand?.map fun b => b.themes[u.themeIndex]?).join := by
    intro u
    rw [activeTheme?]
    cases u.activeBrand? <;> rfl
  rw [hJoin, hJoin, h.themeIndex, h.activeBrand?_map_eq fun _ => rfl]

theorem Alike.activeMode_eq (h : Alike s s') : s.activeMode = s'.activeMode := by
  rw [activeMode, activeMode, h.activeTheme?_eq]

/-- **Alike studios have the same snapshot but for the times.** -/
theorem Alike.snapshot_timeless (h : Alike s s') :
    s.snapshot.timeless = s'.snapshot.timeless := by
  have hBrand := h.activeBrand?_map_eq (g := Brand.id) fun _ => rfl
  simp only [snapshot, Snapshot.timeless, h.brands, hBrand, h.activeTheme?_eq]

/-! ### Changing alike studios -/

theorem Alike.activate (h : Alike s s') (index : Nat) (mode : Mode) :
    Alike (s.activate index mode) (s'.activate index mode) := by
  refine ⟨h.brands, rfl, ?_⟩
  have hIndex := h.getElem?_map_eq (g := fun b => b.indexForMode mode) (fun _ => rfl) index
  exact congrArg (Option.getD · 0) hIndex

theorem Alike.switchMode (h : Alike s s') (mode : Mode) :
    Alike (s.switchMode mode) (s'.switchMode mode) := by
  rw [Studio.switchMode, Studio.switchMode, h.brandIndex]
  exact h.activate s'.brandIndex mode

/-- A brand may be created at different times. -/
theorem Alike.createBrand (h : Alike s s') (ids : Brand.Ids) (now now' : Instant)
    (name description : String) :
    Alike (s.createBrand ids now name description) (s'.createBrand ids now' name description) := by
  have hBrands : Alike { s with brands := s.brands ++ [Brand.create ids now name description] }
      { s' with brands := s'.brands ++ [Brand.create ids now' name description] } := by
    refine ⟨?_, h.brandIndex, h.themeIndex⟩
    rw [List.map_append, List.map_append, h.brands]
    rfl
  rw [Studio.createBrand, Studio.createBrand, h.length_eq, h.activeMode_eq]
  exact hBrands.activate _ _

theorem Alike.selectBrand (h : Alike s s') (id : String) :
    Option.Rel Alike (s.selectBrand id).toOption (s'.selectBrand id).toOption := by
  rw [Studio.selectBrand, Studio.selectBrand, h.indexOfBrand?_eq, h.activeMode_eq]
  cases s'.indexOfBrand? id with
  | none => exact .none
  | some i => exact .some (h.activate i _)

theorem Alike.deleteBrand (h : Alike s s') (id : String) :
    Option.Rel Alike (s.deleteBrand id).toOption (s'.deleteBrand id).toOption := by
  rw [Studio.deleteBrand, Studio.deleteBrand, h.indexOfBrand?_eq, h.length_eq, h.brandIndex,
    h.activeMode_eq]
  cases s'.indexOfBrand? id with
  | none => exact .none
  | some i =>
    have hRest : Alike (s.withoutBrand i) (s'.withoutBrand i) := by
      refine ⟨?_, h.brandIndex, h.themeIndex⟩
      show (s.brands.eraseIdx i).map Brand.timeless = (s'.brands.eraseIdx i).map Brand.timeless
      rw [← List.eraseIdx_map, ← List.eraseIdx_map, h.brands]
    dsimp only
    split
    · exact .none
    · split
      · exact .some (hRest.activate 0 _)
      · split
        · exact .some ⟨hRest.brands, rfl, h.themeIndex⟩
        · exact .some ⟨hRest.brands, rfl, h.themeIndex⟩

/-- Whether an operation is on brands and takes no time. -/
def Operation.isTimeless : Operation → Bool
  | .deleteBrand _ | .selectBrand _ | .switchMode _ => true
  | _ => false

theorem Alike.perform? (h : Alike s s') {op : Operation} (hOp : op.isTimeless = true) :
    Option.Rel Alike (s.perform? op) (s'.perform? op) := by
  cases op with
  | deleteBrand id => exact h.deleteBrand id
  | selectBrand id => exact h.selectBrand id
  | switchMode mode => exact .some (h.switchMode mode)
  | _ => cases hOp

/-- **A run of such operations makes alike studios of alike ones**, or is refused by both. -/
theorem Alike.performAll? (h : Alike s s') {ops : List Operation}
    (hOps : ∀ op ∈ ops, op.isTimeless = true) :
    Option.Rel Alike (s.performAll? ops) (s'.performAll? ops) := by
  induction ops generalizing s s' with
  | nil => exact .some h
  | cons op ops ih =>
    obtain ⟨hOp, hRest⟩ := List.forall_mem_cons.mp hOps
    rw [performAll?_cons, performAll?_cons]
    have hStep := h.perform? hOp
    generalize s.perform? op = next at hStep ⊢
    generalize s'.perform? op = next' at hStep ⊢
    cases hStep with
    | none => exact .none
    | some hNext => exact ih hNext hRest

end Studio

end DesignSystem
