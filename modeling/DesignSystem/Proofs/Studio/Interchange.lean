import DesignSystem.Proofs.Studio.Interruption
import DesignSystem.Proofs.Studio.Snapshot
/-!
# Two kinds of stores

A store in memory keeps a text, and a store in a folder keeps a file, which it gets at by way of
folders that may be missing and of a staging file. To whoever uses them they are the same. A folder
that holds no file answers as a memory without a text does, and one that holds a snapshot as a memory
that holds it (`FolderStore.Mirrors`); the two write a snapshot differently, but read it back to the
same result (`Snapshot.ofStored_pretty`). Every use keeps this up (`FolderStore.use_of_mirrors`), and
so does every sequence of uses (`FolderStore.answers_of_mirrors`).

What may come between them is the disk. It does so exactly if it does not let a snapshot be saved
that is to be saved (`FolderStore.stores_interchangeable_iff`).
-/

namespace DesignSystem

/-! ### Files that are not there -/

namespace Disk

variable {d : Disk} {path text : String}

theorem read_eq_missing_iff : d.read path = .error .missing ↔
    d.locate path = .error .missing ∨ ∃ p, d.locate path = .ok p ∧ d.at? p = none := by
  unfold read
  cases hPath : d.locate path with
  | error e => simp [bind, Except.bind]
  | ok p =>
    cases hAt : d.at? p with
    | none => simp [bind, Except.bind, hAt]
    | some e => rcases e with _ | _ | text <;> simp [bind, Except.bind, hAt]

/-- A file that is not found cannot be removed. -/
theorem remove_of_missing (h : d.read path = .error .missing) :
    d.remove path = .error .missing := by
  rcases read_eq_missing_iff.mp h with hPath | ⟨p, hPath, hAt⟩
  · rw [remove, hPath]
    rfl
  · simp only [remove, hPath, bind, Except.bind, hAt]

/-- A file that is read can be removed, and then it is missing. -/
theorem remove_of_read (h : d.read path = .ok text) :
    ∃ p, d.at? p ≠ some .folder ∧ d.remove path = .ok (d.drop p) ∧
      (d.drop p).read path = .error .missing := by
  obtain ⟨p, hPath, hAt⟩ := exists_file_of_read h
  have hFile : d.at? p ≠ some .folder := by
    rw [hAt]
    nofun
  refine ⟨p, hFile, ?_, read_eq_missing_iff.mpr (.inr ⟨p, ?_, ?_⟩)⟩
  · simp only [remove, hPath, bind, Except.bind, hAt]
  · exact locate_of_extends (extends_drop hFile) hPath
  · rw [at?_drop d p p (ne_root_of_not_folder hFile), if_pos rfl]

end Disk

/-- **Both texts of a snapshot are read to the same result**, be it a snapshot or a failure. -/
theorem Snapshot.ofStored_pretty (s : Snapshot) :
    ofStored s.toJson.pretty = ofStored s.toJson.compact := by
  rw [ofStored, ofStored, read_of_source (Json.ofString_pretty _),
    read_of_source (Json.ofString_compact _)]

/-! ### Uses without mishaps -/

namespace FolderStore

variable {f : FolderStore} {w : Workbench}

/-- Uses the store once, and nothing goes wrong on the way. -/
def use (f : FolderStore) (w : Workbench) (use : Use) : Outcome × Workbench :=
  f.useUnder (fun _ => .sound) w use

theorem use_load (f : FolderStore) (w : Workbench) :
    f.use w .load = (.loaded (some (f.load.run w).1), (f.load.run w).2) := by
  rw [use, useUnder, Job.runUnder_sound]

theorem use_save (f : FolderStore) (w : Workbench) (s : Snapshot) :
    f.use w (.save s) = (.finished (some ((f.save s).run w).1), ((f.save s).run w).2) := by
  rw [use, useUnder, Job.runUnder_sound]

theorem use_clear (f : FolderStore) (w : Workbench) :
    f.use w .clear = (.finished (some (f.clear.run w).1), (f.clear.run w).2) := by
  rw [use, useUnder, Job.runUnder_sound]

/-- What comes of uses one after the other. -/
def answers (f : FolderStore) (w : Workbench) : List Use → List Outcome
  | [] => []
  | use :: uses => (f.use w use).1 :: f.answers (f.use w use).2 uses

theorem load_of_missing (h : w.disk.read f.path = .error .missing) :
    f.load.run w = (.ok none, w) := by
  rw [load, Job.run_read_bind, h]
  rfl

/-- Nothing is loaded only where no file is found. -/
theorem load_eq_none_iff :
    (f.load.run w).1 = .ok none ↔ w.disk.read f.path = .error .missing := by
  constructor
  · intro h
    rw [load, Job.run_read_bind] at h
    cases hRead : w.disk.read f.path with
    | ok text =>
      rw [hRead] at h
      change (Snapshot.ofStored text).map some = .ok none at h
      cases hStored : Snapshot.ofStored text <;> rw [hStored] at h <;> cases h
    | error e =>
      cases e with
      | missing => rfl
      | blocked =>
        rw [hRead] at h
        cases h
  · intro h
    rw [load_of_missing h]

theorem clear_of_missing (h : w.disk.read f.path = .error .missing) :
    f.clear.run w = (.ok (), w) := by
  rw [clear, Job.run_remove_bind (Disk.remove_of_missing h)]
  rfl

theorem clear_of_read {text : String} (h : w.disk.read f.path = .ok text) :
    ∃ p, w.disk.at? p ≠ some .folder ∧ (w.disk.drop p).read f.path = .error .missing ∧
      f.clear.run w = (.ok (), { w with disk := w.disk.drop p }) := by
  obtain ⟨p, hFile, hRemove, hMissing⟩ := Disk.remove_of_read h
  refine ⟨p, hFile, hMissing, ?_⟩
  rw [clear, Job.run_remove_bind hRemove]
  rfl

end FolderStore

/-! ### The store in memory -/

namespace MemoryStore

open FolderStore (Use Outcome)

/-- Uses the store once. -/
def use (m : MemoryStore) : Use → Outcome × MemoryStore
  | .load => (.loaded (some m.load), m)
  | .save s => (.finished (some (.ok ())), m.save s)
  | .clear => (.finished (some (.ok ())), m.clear)

/-- What comes of uses one after the other. -/
def answers (m : MemoryStore) : List Use → List Outcome
  | [] => []
  | use :: uses => (m.use use).1 :: (m.use use).2.answers uses

end MemoryStore

/-! ### Side by side -/

namespace FolderStore

variable {f : FolderStore} {w : Workbench} {m : MemoryStore}

/-- The disk and the memory hold the same snapshot, each in its own writing, or both hold none. -/
inductive Mirrors (f : FolderStore) (d : Disk) : MemoryStore → Prop
  | nothing (h : d.read f.path = .error .missing) : f.Mirrors d .empty
  | snapshot (m : MemoryStore) (s : Snapshot) (h : d.read f.path = .ok s.toJson.pretty) :
    f.Mirrors d (m.save s)

/-- A folder in which a file is found can be used again when the file is gone. -/
theorem Usable.drop {d : Disk} (h : f.Usable d) {text : String} (hRead : d.read f.path = .ok text)
    {p : Disk.Place} (hFile : d.at? p ≠ some .folder) : f.Usable (d.drop p) := by
  obtain ⟨q, hPath, -⟩ := Disk.exists_file_of_read hRead
  obtain ⟨made, hMade, hStaging, hFree⟩ := h
  -- The folder is there, so making it has changed nothing.
  rw [Disk.makeFolders_of_within (by decide) hPath] at hMade
  cases hMade
  exact usable_of_free (hStaging.drop hFile) (hFree.drop hFile)

/-- **One use of both stores.** The same comes of it, and afterwards they still hold the same. -/
theorem use_of_mirrors (hUsable : f.Usable w.disk) (h : f.Mirrors w.disk m) (use : Use) :
    (f.use w use).1 = (m.use use).1 ∧ f.Usable (f.use w use).2.disk ∧
      f.Mirrors (f.use w use).2.disk (m.use use).2 := by
  cases use with
  | load =>
    rw [use_load]
    cases h with
    | nothing hMissing =>
      rw [load_of_missing hMissing]
      exact ⟨rfl, hUsable, .nothing hMissing⟩
    | snapshot m s hRead =>
      rw [load_run hRead, Snapshot.ofStored_pretty]
      exact ⟨rfl, hUsable, .snapshot m s hRead⟩
  | save s =>
    obtain ⟨d, hSave, hRead, hUsable⟩ := save_run hUsable s
    rw [use_save, hSave]
    exact ⟨rfl, hUsable, .snapshot m s hRead⟩
  | clear =>
    rw [use_clear]
    cases h with
    | nothing hMissing =>
      rw [clear_of_missing hMissing]
      exact ⟨rfl, hUsable, .nothing hMissing⟩
    | snapshot m s hRead =>
      obtain ⟨p, hFile, hMissing, hClear⟩ := clear_of_read hRead
      rw [hClear]
      exact ⟨rfl, hUsable.drop hRead hFile, .nothing hMissing⟩

/-- **The same comes of all uses** of two stores that hold the same. -/
theorem answers_of_mirrors (hUsable : f.Usable w.disk) (h : f.Mirrors w.disk m) (uses : List Use) :
    f.answers w uses = m.answers uses := by
  induction uses generalizing w m with
  | nil => rfl
  | cons use uses ih =>
    obtain ⟨hAnswer, hUsable, hMirrors⟩ := use_of_mirrors hUsable h use
    rw [answers, MemoryStore.answers, hAnswer, ih hUsable hMirrors]

/-- Whether a snapshot can be saved is up to the disk and not to the snapshot. -/
theorem save_eq_ok_iff {s : Snapshot} : ((f.save s).run w).1 = .ok () ↔ f.Usable w.disk := by
  constructor
  · exact usable_of_save
  · intro hUsable
    obtain ⟨d, hSave, -⟩ := save_run hUsable s
    rw [hSave]

/-- **A store in a folder and one in memory are interchangeable.** Let no snapshot be in the folder,
be the folder there or not. Then the same comes of any uses of the two, one by one, exactly if the
disk as it is lets every snapshot be saved that is saved among the uses. -/
theorem stores_interchangeable_iff (hNone : (f.load.run w).1 = .ok none) (uses : List Use) :
    f.answers w uses = MemoryStore.empty.answers uses ↔
      ∀ s, Use.save s ∈ uses → ((f.save s).run w).1 = .ok () := by
  have hMissing := load_eq_none_iff.mp hNone
  -- Up to the first save nothing happens on either side, and that one decides.
  induction uses with
  | nil => exact iff_of_true rfl nofun
  | cons use uses ih =>
    cases use with
    | load =>
      rw [answers, use_load, load_of_missing hMissing]
      show Outcome.loaded (some (.ok none)) :: f.answers w uses =
        .loaded (some (.ok none)) :: MemoryStore.empty.answers uses ↔ _
      simp only [List.cons.injEq, true_and, ih, List.mem_cons, reduceCtorEq, false_or]
    | clear =>
      rw [answers, use_clear, clear_of_missing hMissing]
      show Outcome.finished (some (.ok ())) :: f.answers w uses =
        .finished (some (.ok ())) :: MemoryStore.empty.answers uses ↔ _
      simp only [List.cons.injEq, true_and, ih, List.mem_cons, reduceCtorEq, false_or]
    | save s =>
      constructor
      · intro h s' _
        rw [answers, use_save] at h
        have hSave : ((f.save s).run w).1 = .ok () :=
          Option.some.inj (Outcome.finished.inj (List.cons.inj h).1)
        rw [save_eq_ok_iff] at hSave ⊢
        exact hSave
      · intro h
        have hUsable := save_eq_ok_iff.mp (h s List.mem_cons_self)
        exact answers_of_mirrors hUsable (.nothing hMissing) _

/-- Uses that load before anything is saved, save twice and clear twice. -/
def mixedUses : List Use :=
  [.load, .clear, .save ⟨[], "a", "b"⟩, .load, .save ⟨[], "c", "d"⟩, .load, .clear, .clear, .load]

/-- The same comes of these uses where the folder is missing, and where it is there and an unfinished
save has left its staging file. -/
theorem mixed_uses_agree :
    let f : FolderStore := ⟨"home/store"⟩
    let missing := bench Disk.empty
    let left := bench ⟨[(["home"], .folder), (["home", "store"], .folder),
      (["home", "store", stagingName], .file none)]⟩
    ((f.load.run missing).1 = .ok none ∧ (f.load.run left).1 = .ok none) ∧
      f.answers missing mixedUses = MemoryStore.empty.answers mixedUses ∧
      f.answers left mixedUses = MemoryStore.empty.answers mixedUses := by
  intro f missing left
  have hMissing : (f.load.run missing).1 = .ok none := by decide
  have hLeft : (f.load.run left).1 = .ok none := by decide
  have hSaved : ((f.save ⟨[], "", ""⟩).run missing).1 = .ok () := by decide
  have hSavedLeft : ((f.save ⟨[], "", ""⟩).run left).1 = .ok () := by decide
  refine ⟨⟨hMissing, hLeft⟩, ?_, ?_⟩
  · refine (stores_interchangeable_iff hMissing mixedUses).mpr fun s _ => ?_
    exact save_eq_ok_iff.mpr (save_eq_ok_iff.mp hSaved)
  · refine (stores_interchangeable_iff hLeft mixedUses).mpr fun s _ => ?_
    exact save_eq_ok_iff.mpr (save_eq_ok_iff.mp hSavedLeft)

end FolderStore

end DesignSystem
