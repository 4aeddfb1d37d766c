import DesignSystem.Proofs.Studio.Folder
import DesignSystem.Proofs.Studio.Reopening
import DesignSystem.Proofs.Studio.Snapshot
/-!
# What a store gives back

A studio that is saved and loaded again has lost its history, but it should have the same brands and
the same active theme. For the position of the active theme that follows from what is known of
sessions: there is an active theme (`Studio/Active.lean`), and no other has its identifier
(`Studio/Identifiers.lean`), so the snapshot leads back to it (`Studio/Reopening.lean`). For the
brands it does not: a session can edit a tree into one that is not read back as it was written
(`Tree/Storable.lean`). `returns_iff_storable` says that this is all that can go wrong, for a store
in memory and for one in a folder, and `edited_studio_changes` that one edit is enough for it.
-/

namespace DesignSystem.Studio

/-- Every tree of the studio is read back from a snapshot. -/
def Storable (s : Studio) : Prop :=
  ∀ b ∈ s.brands, ∀ t ∈ b.themes, t.tokens.Storable Snapshot.treeDepth

instance (s : Studio) : Decidable s.Storable :=
  inferInstanceAs (Decidable (∀ b ∈ s.brands, ∀ t ∈ b.themes, t.tokens.Storable _))

/-- What a store gives back has the same brands as the studio, and the same theme is active. -/
def Returns (s : Studio) (r : Except OpenError Studio) : Prop :=
  ∃ t, r = .ok t ∧ t.brands = s.brands ∧ t.brandIndex = s.brandIndex ∧ t.themeIndex = s.themeIndex

/-! ### Opening what was stored -/

theorem run_ofLoaded_some (snapshot : Snapshot) (w : Workbench) :
    ((ofLoaded (.ok (some snapshot))).run w).1 = (ofSnapshot snapshot).mapError .refused := by
  simp only [ofLoaded]
  cases ofSnapshot snapshot with
  | error r => rfl
  | ok t => rfl

/-- **A studio that is opened is one that a session may start from.** -/
theorem start_of_ofLoaded {r : Except StoreError (Option Snapshot)} {w : Workbench} {s : Studio}
    (h : ((ofLoaded r).run w).1 = .ok s) : Start s := by
  rcases r with e | found | snapshot
  · cases h
  · cases h
    exact .create _ _
  · rw [run_ofLoaded_some, mapError_eq_ok_iff] at h
    exact .ofSnapshot h

/-- **A text of the studio's snapshot gives the studio back exactly if its trees are storable.** -/
theorem returns_ofStored_iff {s : Studio} (hAnchored : Anchored s) {used : List String}
    (hDistinct : Distinct used s.brands) {text : String}
    (hText : Json.Source.ofString text = some s.snapshot.toJson.source) (w : Workbench) :
    s.Returns ((ofLoaded ((Snapshot.ofStored text).map some)).run w).1 ↔ s.Storable := by
  have hStorable := s.snapshot.reread_iff Snapshot.treeDepth
  rw [Snapshot.ofStored, Snapshot.read_of_source hText]
  cases hRead : s.snapshot.reread Snapshot.treeDepth with
  | none =>
    constructor
    · rintro ⟨t, hError, -⟩
      cases hError
    · intro h
      cases hRead.symm.trans (hStorable.mpr h)
  | some snapshot =>
    show s.Returns ((ofLoaded (.ok (some snapshot))).run w).1 ↔ _
    rw [run_ofLoaded_some]
    constructor
    · rintro ⟨t, hOk, hBrands, -⟩
      obtain ⟨-, -, rfl⟩ := ofSnapshot_eq_ok_iff.mp (mapError_eq_ok_iff.mp hOk)
      have hSame := Snapshot.reread_eq_of_brands hRead hBrands
      exact hStorable.mp (hSame ▸ hRead)
    · intro h
      cases hRead.symm.trans (hStorable.mpr h)
      rw [(foremost_of_distinct hDistinct).ofSnapshot_snapshot hAnchored]
      exact ⟨_, rfl, rfl, rfl, rfl⟩

/-- A store in memory. -/
theorem returns_memory_iff {s : Studio} (hAnchored : Anchored s) {used : List String}
    (hDistinct : Distinct used s.brands) (m : MemoryStore) (w : Workbench) :
    s.Returns ((ofLoaded (m.save s.snapshot).load).run w).1 ↔ s.Storable :=
  returns_ofStored_iff hAnchored hDistinct (Json.ofString_compact _) w

/-- A store in a folder that can be used. -/
theorem returns_folder_iff {s : Studio} (hAnchored : Anchored s) {used : List String}
    (hDistinct : Distinct used s.brands) {f : FolderStore} {w : Workbench}
    (hUsable : f.Usable w.disk) : ((f.save s.snapshot).run w).1 = .ok () ∧
      (s.Returns ((f.load >>= ofLoaded).run ((f.save s.snapshot).run w).2).1 ↔ s.Storable) := by
  obtain ⟨d, hSave, hText, -⟩ := FolderStore.save_run hUsable s.snapshot
  have hLoad := FolderStore.load_run (w := { w with disk := d }) hText
  rw [hSave, Job.run_bind, hLoad]
  exact ⟨rfl, returns_ofStored_iff hAnchored hDistinct (Json.ofString_pretty _) _⟩

/-! ### Operations that edit no tree -/

theorem storable_light : Tree.light.Storable Snapshot.treeDepth := by
  decide +kernel

theorem storable_dark : Tree.dark.Storable Snapshot.treeDepth := by
  decide +kernel

theorem storable_create (ids : Brand.Ids) (now : Instant) (name description : String) :
    ∀ t ∈ (Brand.create ids now name description).themes,
      t.tokens.Storable Snapshot.treeDepth := by
  intro t ht
  rcases List.mem_cons.mp ht with rfl | ht
  · exact storable_light
  · rw [List.mem_singleton.mp ht]
    exact storable_dark

/-- Whether an operation is on brands and leaves the trees in them alone. -/
def Operation.keepsTrees : Operation → Bool
  | .createBrand .. | .deleteBrand _ | .selectBrand _ | .switchMode _ => true
  | _ => false

theorem storable_perform {s : Studio} (h : s.Storable) {op : Operation}
    (hOp : op.keepsTrees = true) : (s.perform op).Storable := by
  cases hPerform : s.perform? op with
  | none =>
    rw [perform_of_none hPerform]
    exact h
  | some s' =>
    rw [perform_of_some hPerform]
    cases op with
    | createBrand ids now name description =>
      cases hPerform
      intro b hb
      rcases List.mem_append.mp hb with hb | hb
      · exact h b hb
      · rw [List.mem_singleton.mp hb]
        exact storable_create ids now name description
    | deleteBrand id =>
      obtain ⟨i, -, -, ⟨-, rfl⟩ | ⟨-, rfl⟩⟩ := perform?_deleteBrand hPerform
      · exact fun b hb => h b (List.mem_of_mem_eraseIdx hb)
      · exact fun b hb => h b (List.mem_of_mem_eraseIdx hb)
    | selectBrand id =>
      obtain ⟨i, -, rfl⟩ := perform?_selectBrand hPerform
      exact h
    | switchMode mode =>
      cases hPerform
      exact h
    | _ => cases hOp

theorem storable_run {s : Studio} (h : s.Storable) {ops : List Operation}
    (hOps : ∀ op ∈ ops, op.keepsTrees = true) : (s.run ops).Storable := by
  induction ops generalizing s with
  | nil => exact h
  | cons op ops ih =>
    obtain ⟨hOp, hRest⟩ := List.forall_mem_cons.mp hOps
    rw [run_cons]
    exact ih (storable_perform h hOp) hRest

/-! ### Sessions -/

theorem anchored_session (ids : Brand.Ids) (now : Instant) (ops : List Operation) :
    Anchored ((create ids now).run ops) :=
  anchored_run (.create ids now) ops

theorem distinct_session {ids : Brand.Ids} {ops : List Operation}
    (hFresh : (ids.all ++ ops.flatMap Operation.taken).Nodup) (now : Instant) :
    Distinct (ids.all ++ ops.flatMap Operation.taken) ((create ids now).run ops).brands :=
  distinct_run ops (distinct_create (List.nodup_append.mp hFresh).1 now) hFresh

/-- **When a store gives back the studio that was saved.** After any session that takes fresh
identifiers, saving in memory and saving in a usable folder succeed, and loading gives back the same
brands with the same theme active exactly if every tree of the studio is storable. -/
theorem returns_iff_storable {ids : Brand.Ids} {ops : List Operation}
    (hFresh : (ids.all ++ ops.flatMap Operation.taken).Nodup) (now : Instant) :
    (∀ (m : MemoryStore) (w : Workbench),
      ((create ids now).run ops).Returns
          ((ofLoaded (m.save ((create ids now).run ops).snapshot).load).run w).1 ↔
        ((create ids now).run ops).Storable) ∧
    (∀ (f : FolderStore) (w : Workbench), f.Usable w.disk →
      ((f.save ((create ids now).run ops).snapshot).run w).1 = .ok () ∧
      (((create ids now).run ops).Returns
          ((f.load >>= ofLoaded).run ((f.save ((create ids now).run ops).snapshot).run w).2).1 ↔
        ((create ids now).run ops).Storable)) := by
  have hAnchored := anchored_session ids now ops
  have hDistinct := distinct_session hFresh now
  constructor
  · intro m w
    exact returns_memory_iff hAnchored hDistinct m w
  · intro f w hUsable
    exact returns_folder_iff hAnchored hDistinct hUsable

/-- Surroundings with an empty disk. -/
def emptyBench : Workbench :=
  ⟨Disk.empty, fun _ => "", fun _ => Instant.epoch, 0, 0⟩

theorem usable_emptyBench : (FolderStore.mk "store").Usable emptyBench.disk :=
  ⟨⟨[(["store"], .folder)]⟩, rfl, ⟨["store", FolderStore.stagingName], rfl, nofun⟩,
    ["store", FolderStore.fileName], rfl, nofun⟩

/-- The identifiers of the brand that the sessions below begin with. -/
def firstIds : Brand.Ids :=
  ⟨"brand-1", "light-1", "dark-1"⟩

/-- A session that leaves the first brand for a second one and deletes it. -/
def movingSession : List Operation :=
  [.createBrand ⟨"brand-2", "light-2", "dark-2"⟩ Instant.epoch "Second" "",
    .selectTheme "dark-2", .deleteBrand "brand-1"]

theorem returns_after_deletion :
    (firstIds.all ++ movingSession.flatMap Operation.taken).Nodup ∧
    (FolderStore.mk "store").Usable emptyBench.disk ∧
    ((create firstIds Instant.epoch).run movingSession).Returns ((ofLoaded (MemoryStore.empty.save
      ((create firstIds Instant.epoch).run movingSession).snapshot).load).run emptyBench).1 ∧
    ((create firstIds Instant.epoch).run movingSession).Returns
      (((FolderStore.mk "store").load >>= ofLoaded).run (((FolderStore.mk "store").save
        ((create firstIds Instant.epoch).run movingSession).snapshot).run emptyBench).2).1 := by
  have hFresh : (firstIds.all ++ movingSession.flatMap Operation.taken).Nodup := by decide
  have hStorable : ((create firstIds Instant.epoch).run movingSession).Storable := by
    decide +kernel
  obtain ⟨hMemory, hFolder⟩ := returns_iff_storable hFresh Instant.epoch
  refine ⟨hFresh, usable_emptyBench, ?_, ?_⟩
  · exact (hMemory MemoryStore.empty emptyBench).mpr hStorable
  · exact (hFolder _ emptyBench usable_emptyBench).2.mpr hStorable

/-- A session that sets a token under the key by which documents tell tokens from groups. -/
def editingSession : List Operation :=
  [.update Instant.epoch "color.value" "#ffffff"]

/-- **A store need not give back the studio that was saved.** -/
theorem edited_studio_changes :
    ¬ ∀ (ids : Brand.Ids) (ops : List Operation) (now : Instant) (m : MemoryStore) (w : Workbench),
      (ids.all ++ ops.flatMap Operation.taken).Nodup →
      ((create ids now).run ops).Returns
        ((ofLoaded (m.save ((create ids now).run ops).snapshot).load).run w).1 := by
  intro hAll
  have hFresh : (firstIds.all ++ editingSession.flatMap Operation.taken).Nodup := by decide
  have hNot : ¬((create firstIds Instant.epoch).run editingSession).Storable := by
    decide +kernel
  have hReturns := hAll firstIds editingSession Instant.epoch MemoryStore.empty emptyBench hFresh
  have hAnchored := anchored_session firstIds Instant.epoch editingSession
  have hDistinct := distinct_session hFresh Instant.epoch
  exact hNot ((returns_memory_iff hAnchored hDistinct _ _).mp hReturns)

end DesignSystem.Studio
