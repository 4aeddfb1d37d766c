import DesignSystem.Generation.Registry
import DesignSystem.Proofs.Disk
/-!
# Names of generated files

A strategy names its files by templates that the description of a component fills. So the names are
not free of choice, but the catalog is finite, and all of them can be looked at.
-/

namespace DesignSystem

theorem Strategy.mem_all (s : Strategy) : s ∈ all := by
  cases s <;> decide

namespace Generation

/-- A name that is plain and not that of a document. -/
def IsSourceName (name : String) : Prop :=
  Disk.IsPlain name ∧ Text.endsWith name ".json" = false

instance (name : String) : Decidable (IsSourceName name) :=
  inferInstanceAs (Decidable (_ ∧ _))

theorem isSourceName_of_render : ∀ c ∈ Component.all, ∀ s ∈ Strategy.all, ∀ o ∈ s.outputs,
    ∀ name ∈ (Template.renderText o.fileName (c.describe c.fragments)).toOption,
      IsSourceName name := by
  decide +kernel

theorem fileName_of_fill {data : Json} {o : Output} {f : GeneratedFile} (h : fill data o = .ok f) :
    Template.renderText o.fileName data = .ok f.fileName := by
  obtain ⟨name, hName, h⟩ := exists_of_bind_eq_ok h
  obtain ⟨content, -, h⟩ := exists_of_bind_eq_ok h
  obtain ⟨description, -, h⟩ := exists_of_bind_eq_ok h
  cases h
  exact hName

theorem exists_of_mem_mapM {α β ε : Type} {f : α → Except ε β} {l : List α} {results : List β}
    (h : l.mapM f = .ok results) {y : β} (hy : y ∈ results) : ∃ x ∈ l, f x = .ok y := by
  induction l generalizing results with
  | nil =>
    cases h
    cases hy
  | cons x l ih =>
    rw [List.mapM_cons] at h
    obtain ⟨first, hFirst, h⟩ := exists_of_bind_eq_ok h
    obtain ⟨rest, hRest, h⟩ := exists_of_bind_eq_ok h
    cases h
    rcases List.mem_cons.mp hy with rfl | hy
    · exact ⟨x, List.mem_cons_self, hFirst⟩
    · obtain ⟨x', hx', hResult⟩ := ih hRest hy
      exact ⟨x', List.mem_cons_of_mem x hx', hResult⟩

/-- **Every generated file has a plain name, which is not that of a document.** -/
theorem isSourceName_of_generate {c : Component} {s : Strategy} {files : List GeneratedFile}
    (h : generate c s = .ok files) : ∀ f ∈ files, IsSourceName f.fileName := by
  intro f hf
  have hFiles : s.outputs.mapM (fill (c.describe c.fragments)) = .ok files := by
    simp only [generate, Registry.generate?, Registry.ofCatalog, Option.map_some,
      Generation.files] at h
    cases hResult : s.outputs.mapM (fill (c.describe c.fragments)) with
    | error e =>
      rw [hResult] at h
      cases h
    | ok found =>
      rw [hResult] at h
      cases h
      rfl
  obtain ⟨o, ho, hFill⟩ := exists_of_mem_mapM hFiles hf
  refine isSourceName_of_render c c.mem_all s s.mem_all o ho f.fileName ?_
  rw [fileName_of_fill hFill]
  rfl

end Generation

end DesignSystem
