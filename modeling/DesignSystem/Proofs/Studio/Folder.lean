import DesignSystem.Proofs.Disk
import DesignSystem.Studio.Store
/-!
# What a folder store keeps

A folder store writes a text to one file and moves it to another. The path of either file is looked
up several times, each time on a disk that has changed in between. `Disk.Extends` is what the
changes have in common: every folder is still there. It is enough for a path to lead to the same
place (`Disk.locate_of_extends`), because a path goes through folders only.

With that, where the folder can be made and neither file name is taken by a folder, saving succeeds,
the text is found afterwards and the store can be used again (`FolderStore.save_run`). Nowhere else
does it succeed (`FolderStore.usable_of_save`).
-/

namespace DesignSystem

namespace Disk

/-- Every folder of the one disk is a folder of the other. -/
def Extends (d d' : Disk) : Prop :=
  ∀ p, d.at? p = some .folder → d'.at? p = some .folder

/-- Putting a file where no folder is keeps all folders. -/
theorem extends_put {d : Disk} {p : Place} (h : d.at? p ≠ some .folder) (e : Entry) :
    Extends d (d.put p e) := by
  intro q hq
  rw [at?_put d p q e (ne_root_of_not_folder h), if_neg]
  · exact hq
  · rintro rfl
    exact h hq

/-- So does removing a file. -/
theorem extends_drop {d : Disk} {p : Place} (h : d.at? p ≠ some .folder) :
    Extends d (d.drop p) := by
  intro q hq
  rw [at?_drop d p q (ne_root_of_not_folder h), if_neg]
  · exact hq
  · rintro rfl
    exact h hq

theorem enter_of_extends {d d' : Disk} (h : Extends d d') {p q : Place} {name : String}
    (hEnter : d.enter p name = .ok q) : d'.enter p name = .ok q := by
  have hFolder := folder_of_enter hEnter
  unfold enter at hEnter ⊢
  rw [hFolder] at hEnter
  rw [h p hFolder]
  exact hEnter

theorem foldlM_enter_of_extends {d d' : Disk} (h : Extends d d') (names : List String)
    {p q : Place} (hWalk : names.foldlM d.enter p = .ok q) : names.foldlM d'.enter p = .ok q := by
  induction names generalizing p with
  | nil => exact hWalk
  | cons name names ih =>
    rw [List.foldlM_cons] at hWalk ⊢
    obtain ⟨r, hEnter, hRest⟩ := exists_of_bind_eq_ok hWalk
    rw [enter_of_extends h hEnter]
    exact ih hRest

/-- **A path leads to the same place** on a disk that has all the folders. -/
theorem locate_of_extends {d d' : Disk} (h : Extends d d') {path : String} {p : Place}
    (hPath : d.locate path = .ok p) : d'.locate path = .ok p := by
  obtain ⟨names, hNames, hWalk⟩ := exists_of_bind_eq_ok hPath
  rw [locate, hNames]
  exact foldlM_enter_of_extends h names hWalk

/-- A path leads to a place that a file may take. -/
def Free (d : Disk) (path : String) : Prop :=
  ∃ p, d.locate path = .ok p ∧ d.at? p ≠ some .folder

/-- What is free is still free when a file has been removed somewhere. -/
theorem Free.drop {d : Disk} {p : Place} (h : d.at? p ≠ some .folder) {path : String}
    (hFree : d.Free path) : (d.drop p).Free path := by
  obtain ⟨q, hPath, hAt⟩ := hFree
  refine ⟨q, locate_of_extends (extends_drop h) hPath, ?_⟩
  rw [at?_drop d p q (ne_root_of_not_folder h)]
  split
  · nofun
  · exact hAt

/-- What was free before a file was put somewhere is found in the same way. -/
theorem free_of_put {d : Disk} {p : Place} {text : Option String} (h : d.at? p ≠ some .folder)
    {path : String} (hFree : (d.put p (.file text)).Free path) : d.Free path := by
  have hBack : Extends (d.put p (.file text)) d := by
    intro q hq
    rw [at?_put d p q _ (ne_root_of_not_folder h)] at hq
    split at hq
    · cases hq
    · exact hq
  obtain ⟨q, hPath, hAt⟩ := hFree
  exact ⟨q, locate_of_extends hBack hPath, fun hFolder => hAt (extends_put h _ q hFolder)⟩

theorem read_of_locate {d : Disk} {path text : String} {p : Place} (hPath : d.locate path = .ok p)
    (hText : d.at? p = some (.file (some text))) : d.read path = .ok text := by
  simp only [read, hPath, bind, Except.bind, hText]

theorem exists_file_of_read {d : Disk} {path text : String} (h : d.read path = .ok text) :
    ∃ p, d.locate path = .ok p ∧ d.at? p = some (.file (some text)) := by
  obtain ⟨p, hPath, hAt⟩ := exists_of_bind_eq_ok h
  refine ⟨p, hPath, ?_⟩
  split at hAt
  · cases hAt
  · cases hAt
  · cases hAt
  · rename_i hFile
    cases hAt
    exact hFile

/-- Writing to a free path puts the file there. -/
theorem write_of_free {d : Disk} {path : String} {p : Place} (hPath : d.locate path = .ok p)
    (hFree : d.at? p ≠ some .folder) (text : String) :
    d.write path text = .ok (d.put p (.file (some text))) := by
  simp only [write, hPath, Except.mapError, bind, Except.bind]
  cases hp : d.at? p with
  | none => rfl
  | some e =>
    cases e with
    | folder => exact absurd hp hFree
    | file old => rfl

theorem free_of_write {d d' : Disk} {path text : String} (h : d.write path text = .ok d') :
    d.Free path :=
  ⟨placeOf path, locate_of_write h, (write_eq_ok h).1⟩

/-- **What is written is read.** -/
theorem read_of_write {d d' : Disk} {path text : String} (h : d.write path text = .ok d') :
    d'.read path = .ok text := by
  obtain ⟨p, hLocate, hFree⟩ := free_of_write h
  cases h.symm.trans (write_of_free hLocate hFree text)
  refine read_of_locate (locate_of_extends (extends_put hFree _) hLocate) ?_
  rw [at?_put d p p _ (ne_root_of_not_folder hFree), if_pos rfl]

/-- Moving a file to a free path puts it there. -/
theorem rename_of_free {d : Disk} {source target : String} {p q : Place} {text : Option String}
    (hSource : d.locate source = .ok p) (hTarget : d.locate target = .ok q)
    (hFile : d.at? p = some (.file text)) (hFree : d.at? q ≠ some .folder) :
    d.rename source target = .ok ((d.drop p).put q (.file text)) := by
  cases hq : d.at? q with
  | none => simp only [rename, hSource, hTarget, bind, Except.bind, hFile, hq]
  | some e =>
    cases e with
    | folder => exact absurd hq hFree
    | file old => simp only [rename, hSource, hTarget, bind, Except.bind, hFile, hq]

theorem free_of_rename {d d' : Disk} {source target : String}
    (h : d.rename source target = .ok d') : d.Free target := by
  obtain ⟨p, -, h⟩ := exists_of_bind_eq_ok h
  obtain ⟨q, hTarget, h⟩ := exists_of_bind_eq_ok h
  refine ⟨q, hTarget, fun hFolder => ?_⟩
  rw [hFolder] at h
  cases hp : d.at? p with
  | none =>
    rw [hp] at h
    cases h
  | some e =>
    rw [hp] at h
    cases e <;> cases h

end Disk

/-! ### Requests on a workbench -/

namespace Job

variable {α : Type}

theorem run_read_bind (path : String) (next : Except Disk.Error String → Job α) (w : Workbench) :
    (read path >>= next).run w = (next (w.disk.read path)).run w :=
  rfl

theorem run_makeFolders_bind {path : String} {w : Workbench} {d : Disk}
    {r : Except Disk.Error Unit} (h : w.disk.makeFolders path = (r, d))
    (next : Except Disk.Error Unit → Job α) :
    (makeFolders path >>= next).run w = (next r).run { w with disk := d } := by
  show (next (w.disk.makeFolders path).1).run { w with disk := (w.disk.makeFolders path).2 } = _
  rw [h]

theorem run_write_bind {path text : String} {w : Workbench} {r : Except Disk.Error Disk}
    (h : w.disk.write path text = r) (next : Except Disk.Error Unit → Job α) :
    (write path text >>= next).run w = (next (w.change r).1).run (w.change r).2 := by
  show (next (w.change (w.disk.write path text)).1).run (w.change (w.disk.write path text)).2 = _
  rw [h]

theorem run_rename_bind {source target : String} {w : Workbench} {r : Except Disk.Error Disk}
    (h : w.disk.rename source target = r) (next : Except Disk.Error Unit → Job α) :
    (rename source target >>= next).run w = (next (w.change r).1).run (w.change r).2 := by
  show (next (w.change (w.disk.rename source target)).1).run
    (w.change (w.disk.rename source target)).2 = _
  rw [h]

theorem run_remove_bind {path : String} {w : Workbench} {r : Except Disk.Error Disk}
    (h : w.disk.remove path = r) (next : Except Disk.Error Unit → Job α) :
    (remove path >>= next).run w = (next (w.change r).1).run (w.change r).2 := by
  show (next (w.change (w.disk.remove path)).1).run (w.change (w.disk.remove path)).2 = _
  rw [h]

end Job

namespace FolderStore

/-- The place of the snapshot's file. -/
def place (f : FolderStore) : Disk.Place :=
  Disk.placeOf f.path

theorem place_eq (f : FolderStore) : f.place = Disk.placeOf f.folder ++ [fileName] :=
  Disk.placeOf_within f.folder (by decide)

/-- The disk lets the store work: the folder can be made if it is missing, and then both files can
be written in it. -/
def Usable (f : FolderStore) (d : Disk) : Prop :=
  ∃ d', d.makeFolders f.folder = (.ok (), d') ∧ d'.Free f.stagingPath ∧ d'.Free f.path

/-- The two steps that change a file: writing the staging file and moving it to its place. -/
theorem exists_kept {f : FolderStore} {d : Disk} (hStaging : d.Free f.stagingPath)
    (hPath : d.Free f.path) (text : String) :
    ∃ written kept, d.write f.stagingPath text = .ok written ∧
      written.rename f.stagingPath f.path = .ok kept ∧ kept.read f.path = .ok text ∧
      kept.Free f.stagingPath ∧ kept.Free f.path := by
  obtain ⟨p, hStaging, hStagingFree⟩ := hStaging
  obtain ⟨q, hPath, hPathFree⟩ := hPath
  have hNotRoot := Disk.ne_root_of_not_folder hStagingFree
  -- The staging file is written,
  have hWrite := Disk.write_of_free hStaging hStagingFree text
  have hWritten := Disk.extends_put hStagingFree (.file (some text))
  have hAt : (d.put p (.file (some text))).at? p = some (.file (some text)) := by
    rw [d.at?_put p p _ hNotRoot, if_pos rfl]
  have hTarget : (d.put p (.file (some text))).at? q ≠ some .folder := by
    rw [d.at?_put p q _ hNotRoot]
    split
    · nofun
    · exact hPathFree
  -- then it is removed from its place,
  have hRename := Disk.rename_of_free (Disk.locate_of_extends hWritten hStaging)
    (Disk.locate_of_extends hWritten hPath) hAt hTarget
  have hDropped : (d.put p (.file (some text))).Extends
      ((d.put p (.file (some text))).drop p) := by
    refine Disk.extends_drop ?_
    rw [hAt]
    nofun
  have hFree : ((d.put p (.file (some text))).drop p).at? q ≠ some .folder := by
    rw [Disk.at?_drop _ p q hNotRoot]
    split
    · nofun
    · exact hTarget
  -- and put where the other path leads to on all these disks.
  have hKept := Disk.extends_put hFree (.file (some text))
  have hFound := Disk.locate_of_extends hKept
    (Disk.locate_of_extends hDropped (Disk.locate_of_extends hWritten hPath))
  have hStagingFound := Disk.locate_of_extends hKept
    (Disk.locate_of_extends hDropped (Disk.locate_of_extends hWritten hStaging))
  have hText : (((d.put p (.file (some text))).drop p).put q (.file (some text))).at? q =
      some (.file (some text)) := by
    rw [Disk.at?_put _ q q _ (Disk.ne_root_of_not_folder hFree), if_pos rfl]
  refine ⟨_, _, hWrite, hRename, Disk.read_of_locate hFound hText, ⟨p, hStagingFound, ?_⟩,
    q, hFound, ?_⟩
  · rw [Disk.at?_put _ q p _ (Disk.ne_root_of_not_folder hFree)]
    split
    · nofun
    · rw [Disk.at?_drop _ p p hNotRoot, if_pos rfl]
      nofun
  · rw [hText]
    nofun

/-- Where both files can be written the folder is there. -/
theorem usable_of_free {f : FolderStore} {d : Disk} (hStaging : d.Free f.stagingPath)
    (hPath : d.Free f.path) : f.Usable d := by
  obtain ⟨p, hLocate, hFree⟩ := hStaging
  exact ⟨d, Disk.makeFolders_of_within (by decide) hLocate, ⟨p, hLocate, hFree⟩, hPath⟩

/-- **Saving succeeds, the text is found afterwards, and the store can be used again.** -/
theorem save_run {f : FolderStore} {w : Workbench} (h : f.Usable w.disk) (s : Snapshot) :
    ∃ d, (f.save s).run w = (.ok (), { w with disk := d }) ∧
      d.read f.path = .ok s.toJson.pretty ∧ f.Usable d := by
  obtain ⟨made, hMade, hStaging, hPath⟩ := h
  obtain ⟨written, kept, hWrite, hRename, hRead, hStagingKept, hPathKept⟩ :=
    exists_kept hStaging hPath s.toJson.pretty
  refine ⟨kept, ?_, hRead, usable_of_free hStagingKept hPathKept⟩
  rw [save, Job.run_makeFolders_bind hMade]
  show (Job.write f.stagingPath s.toJson.pretty >>= _).run _ = _
  rw [Job.run_write_bind hWrite]
  show (Job.rename f.stagingPath f.path >>= _).run _ = _
  rw [Job.run_rename_bind hRename]
  rfl

/-- **Saving succeeds only where the store can be used.** -/
theorem usable_of_save {f : FolderStore} {w : Workbench} {s : Snapshot}
    (h : ((f.save s).run w).1 = .ok ()) : f.Usable w.disk := by
  cases hMade : w.disk.makeFolders f.folder with
  | mk r made =>
    rw [save, Job.run_makeFolders_bind hMade] at h
    cases r with
    | error e => cases h
    | ok =>
      cases hWrite : made.write f.stagingPath s.toJson.pretty with
      | error e =>
        rw [Job.run_write_bind hWrite] at h
        cases h
      | ok written =>
        rw [Job.run_write_bind hWrite] at h
        change ((Job.rename f.stagingPath f.path >>= _).run { w with disk := written }).1 = _ at h
        cases hRename : written.rename f.stagingPath f.path with
        | error e =>
          rw [Job.run_rename_bind hRename] at h
          cases h
        | ok kept =>
          obtain ⟨hFree, hWritten⟩ := Disk.write_eq_ok hWrite
          have hPath := Disk.free_of_rename hRename
          rw [hWritten] at hPath
          exact ⟨made, hMade, Disk.free_of_write hWrite, Disk.free_of_put hFree hPath⟩

/-- A store finds the text that is kept. -/
theorem load_run {f : FolderStore} {w : Workbench} {text : String}
    (h : w.disk.read f.path = .ok text) :
    f.load.run w = ((Snapshot.ofStored text).map some, w) := by
  rw [load, Job.run_read_bind, h]
  rfl

end FolderStore

end DesignSystem
