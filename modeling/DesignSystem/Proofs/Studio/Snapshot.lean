import DesignSystem.Studio.Store
import DesignSystem.Proofs.Instant
import DesignSystem.Proofs.Tree.Storable
/-!
# Which snapshots are read back

A snapshot is a record of texts, instants and trees. Texts and instants always come back, and so the
records around the trees do (`Snapshot.ofSource_source`): all that can differ in the snapshot that
is read are the trees. Five levels of the text are opened before a tree begins, which leaves
`Snapshot.treeDepth` of them for the tree.
-/

namespace DesignSystem

/-! ### Lists -/

theorem mapM_eq_some_self_iff {α : Type} {f : α → Option α} {l : List α} :
    l.mapM f = some l ↔ ∀ a ∈ l, f a = some a := by
  induction l with
  | nil => simp
  | cons a l ih =>
    rw [List.mapM_cons, List.forall_mem_cons, ← ih]
    constructor
    · intro h
      obtain ⟨b, hb, h⟩ := Option.bind_eq_some_iff.mp h
      obtain ⟨bs, hbs, h⟩ := Option.bind_eq_some_iff.mp h
      obtain ⟨hHead, hTail⟩ := List.cons.inj (Option.some.inj h)
      exact ⟨hHead ▸ hb, hTail ▸ hbs⟩
    · rintro ⟨ha, hl⟩
      rw [ha, hl]
      rfl

theorem map_eq_some_self_iff {α β : Type} {r : Option β} {f : β → α} {a : α} {b : β}
    (hf : f b = a) (hInj : ∀ c, f c = a → c = b) : r.map f = some a ↔ r = some b := by
  rw [Option.map_eq_some_iff]
  constructor
  · rintro ⟨c, hc, hEq⟩
    rw [hc, hInj c hEq]
  · rintro rfl
    exact ⟨b, rfl, hf⟩

/-- A list of documents is read item by item. -/
theorem list_source {α β : Type} (depth : Nat) (item : Nat → Json.Source → Option β)
    (toJson : α → Json) (l : List α) :
    (Json.array (l.map toJson)).source.list (depth + 1) item =
      l.mapM fun a => item depth (toJson a).source := by
  show (Json.itemSources (l.map toJson)).mapM (item depth) = _
  rw [Json.itemSources_eq_map, List.map_map, List.mapM_map]
  rfl

/-! ### Records -/

/-- What comes back of a theme, with `depth` levels left for its tree. -/
def Theme.reread (depth : Nat) (t : Theme) : Option Theme :=
  (t.tokens.reread depth).map fun tokens => { t with tokens }

theorem Theme.ofSource_source (depth : Nat) (t : Theme) :
    Theme.ofSource (depth + 1) t.toJson.source = t.reread depth := by
  have hFields : t.toJson.source.fields ["id", "name", "mode", "tokens"] =
      some [some (Json.string t.id).source, some (Json.string t.name).source,
        some (Json.string t.mode.name).source, some t.tokens.toJson.source] := by
    rw [Theme.toJson, Json.fields_source]
    · rfl
    · show ["id", "name", "mode", "tokens"].Nodup
      decide
  have hMode : (Json.string t.mode.name).source.alternative depth = some t.mode.name :=
    Json.decodeText_piecesOf _
  rw [Theme.ofSource, Json.Source.opened]
  refine (bind_of_eq_some hFields _).trans ?_
  refine (bind_of_eq_some (Json.text_source t.id) _).trans ?_
  refine (bind_of_eq_some (Json.text_source t.name) _).trans ?_
  refine (bind_of_eq_some hMode _).trans ?_
  refine (bind_of_eq_some (Mode.ofName?_name t.mode) _).trans ?_
  rw [Theme.reread, Tree.reread, Option.map_bind]
  refine Option.bind_congr fun j _ => ?_
  rw [Function.comp_apply, Option.map_eq_bind]
  rfl

/-- What comes back of a brand, with `depth` levels left for each tree. -/
def Brand.reread (depth : Nat) (b : Brand) : Option Brand :=
  (b.themes.mapM (Theme.reread depth)).map fun themes => { b with themes }

theorem Instant.ofSource_write (i : Instant) :
    Instant.ofSource (Json.string i.write).source = some i := by
  rw [Instant.ofSource, Json.text_source]
  exact Instant.read_write i

theorem Brand.ofSource_source (depth : Nat) (b : Brand) :
    Brand.ofSource (depth + 3) b.toJson.source = b.reread depth := by
  have hFields : b.toJson.source.fields
      ["id", "name", "description", "themes", "createdAt", "updatedAt"] =
      some [some (Json.string b.id).source, some (Json.string b.name).source,
        some (Json.string b.description).source,
        some (Json.array (b.themes.map Theme.toJson)).source,
        some (Json.string b.createdAt.write).source,
        some (Json.string b.updatedAt.write).source] := by
    rw [Brand.toJson, Json.fields_source]
    · rfl
    · show ["id", "name", "description", "themes", "createdAt", "updatedAt"].Nodup
      decide
  have hThemes : (Json.array (b.themes.map Theme.toJson)).source.list (depth + 2) Theme.ofSource =
      b.themes.mapM (Theme.reread depth) := by
    rw [list_source]
    simp only [Theme.ofSource_source]
  rw [Brand.ofSource, Json.Source.opened]
  refine (bind_of_eq_some hFields _).trans ?_
  refine (bind_of_eq_some (Json.text_source b.id) _).trans ?_
  refine (bind_of_eq_some (Json.text_source b.name) _).trans ?_
  refine (bind_of_eq_some (Json.text_source b.description) _).trans ?_
  rw [Brand.reread, Option.map_eq_bind, ← hThemes]
  refine Option.bind_congr fun themes _ => ?_
  refine (bind_of_eq_some (Instant.ofSource_write b.createdAt) _).trans ?_
  refine (bind_of_eq_some (Instant.ofSource_write b.updatedAt) _).trans ?_
  rfl

namespace Snapshot

/-- What comes back of a snapshot, with `depth` levels left for each tree. -/
def reread (depth : Nat) (s : Snapshot) : Option Snapshot :=
  (s.brands.mapM (Brand.reread depth)).map fun brands => { s with brands }

theorem ofSource_source (depth : Nat) (s : Snapshot) :
    ofSource (depth + 5) s.toJson.source = s.reread depth := by
  have hFields : s.toJson.source.fields ["brands", "activeBrandId", "activeThemeId"] =
      some [some (Json.array (s.brands.map Brand.toJson)).source,
        some (Json.string s.activeBrandId).source, some (Json.string s.activeThemeId).source] := by
    rw [Snapshot.toJson, Json.fields_source]
    · rfl
    · show ["brands", "activeBrandId", "activeThemeId"].Nodup
      decide
  have hBrands : (Json.array (s.brands.map Brand.toJson)).source.list (depth + 4) Brand.ofSource =
      s.brands.mapM (Brand.reread depth) := by
    rw [list_source]
    simp only [Brand.ofSource_source]
  rw [ofSource, Json.Source.opened]
  refine (bind_of_eq_some hFields _).trans ?_
  rw [reread, Option.map_eq_bind, ← hBrands]
  refine Option.bind_congr fun brands _ => ?_
  refine (bind_of_eq_some (Json.text_source s.activeBrandId) _).trans ?_
  refine (bind_of_eq_some (Json.text_source s.activeThemeId) _).trans ?_
  rfl

/-- The levels that are left for a tree inside a snapshot. -/
def treeDepth : Nat :=
  122

/-- A text that is read as the document of a snapshot gives what comes back of it. -/
theorem read_of_source {s : Snapshot} {text : String}
    (h : Json.Source.ofString text = some s.toJson.source) : read text = s.reread treeDepth := by
  rw [read, h]
  exact ofSource_source treeDepth s

end Snapshot

/-! ### What comes back unchanged -/

theorem Theme.reread_iff (depth : Nat) (t : Theme) :
    t.reread depth = some t ↔ t.tokens.Storable depth := by
  rw [← Tree.reread_iff, Theme.reread]
  refine map_eq_some_self_iff rfl ?_
  intro tokens hEq
  exact congrArg Theme.tokens hEq

theorem Brand.reread_iff (depth : Nat) (b : Brand) :
    b.reread depth = some b ↔ ∀ t ∈ b.themes, t.tokens.Storable depth := by
  have hThemes : b.themes.mapM (Theme.reread depth) = some b.themes ↔
      ∀ t ∈ b.themes, t.tokens.Storable depth := by
    rw [mapM_eq_some_self_iff]
    exact forall₂_congr fun t _ => t.reread_iff depth
  rw [← hThemes, Brand.reread]
  refine map_eq_some_self_iff rfl ?_
  intro themes hEq
  exact congrArg Brand.themes hEq

/-- **A snapshot is read back exactly if all its trees are storable.** -/
theorem Snapshot.reread_iff (depth : Nat) (s : Snapshot) :
    s.reread depth = some s ↔ ∀ b ∈ s.brands, ∀ t ∈ b.themes, t.tokens.Storable depth := by
  have hBrands : s.brands.mapM (Brand.reread depth) = some s.brands ↔
      ∀ b ∈ s.brands, ∀ t ∈ b.themes, t.tokens.Storable depth := by
    rw [mapM_eq_some_self_iff]
    exact forall₂_congr fun b _ => b.reread_iff depth
  rw [← hBrands, Snapshot.reread]
  refine map_eq_some_self_iff rfl ?_
  intro brands hEq
  exact congrArg Snapshot.brands hEq

/-- Apart from the brands, nothing changes in a snapshot that comes back. -/
theorem Snapshot.reread_eq_of_brands {depth : Nat} {s s' : Snapshot} (h : s.reread depth = some s')
    (hBrands : s'.brands = s.brands) : s' = s := by
  obtain ⟨brands, -, rfl⟩ := Option.map_eq_some_iff.mp h
  cases hBrands
  rfl

end DesignSystem
