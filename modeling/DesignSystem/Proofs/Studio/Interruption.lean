import DesignSystem.Proofs.Studio.Staging
/-!
# Broken off saves

A save makes the folder of its store, writes the staging file and moves it over the snapshot, and at
any of these steps it may fail or stop. Before the last step there may be new folders on the way to
the store and any staging file (`FolderStore.Begun`); after it the new text stands in place of the
old one. Nothing else can become of a save (`FolderStore.save_runUnder`), and if it fails it says at
which path (`FolderStore.failure_of_save`).
-/

namespace DesignSystem

namespace FolderStore

variable {f : FolderStore} {d d' : Disk}

/-! ### A save that is broken off -/

/-- What a save may leave before the new text stands in its place: new folders on the way, and a
staging file with any text. -/
def Begun (f : FolderStore) (d d' : Disk) : Prop :=
  ∃ made, Disk.Furnished f.folder d made ∧ (d' = made ∨ f.Alike made d')

theorem Begun.fileAt?_eq (h : f.Begun d d') : d'.fileAt? f.place = d.fileAt? f.place := by
  obtain ⟨made, hMade, hSame⟩ := h
  have hBefore : made.fileAt? f.place = d.fileAt? f.place := hMade.fileAt?_eq f.place
  rcases hSame with rfl | hAlike
  · exact hBefore
  · rw [Disk.fileAt?_congr hAlike.at?_place, hBefore]

/-- **What has only begun does not show**, if the path of the store is steady. -/
theorem Begun.read_eq (h : f.Begun d d') (hRooted : d.Rooted) (hSteady : d.Steady f.folder) :
    d'.read f.path = d.read f.path := by
  obtain ⟨made, hMade, hSame⟩ := h
  have hBefore : made.read f.path = d.read f.path :=
    hMade.read_eq hRooted hSteady isPlain_fileName (by decide)
  rcases hSame with rfl | hAlike
  · exact hBefore
  · rw [hAlike.read_eq, hBefore]

/-- The paths that a save works on. -/
def paths (f : FolderStore) : List String :=
  [f.folder, f.stagingPath, f.path]

/-- A save gave up at one of its paths. -/
def GaveUp (f : FolderStore) (r : Except StoreError Unit) : Prop :=
  ∃ failure : Disk.Failure, failure.path ∈ f.paths ∧ r = .error (.disk failure)

/-- How a save may end that began on a disk: it has only begun, and if it was not stopped it gave up,
or its text stands in its place. -/
def Ends (f : FolderStore) (text : String) (d : Disk)
    (ended : Option (Except StoreError Unit) × Workbench) : Prop :=
  f.Begun d ended.2.disk ∧ (∀ r, ended.1 = some r → f.GaveUp r) ∨
    ended.2.disk.read f.path = .ok text ∧ ∀ e, ended.1 ≠ some (.error e)

theorem gaveUp_folder (e : Disk.Error) : f.GaveUp (.error (.disk ⟨f.folder, e⟩)) :=
  ⟨_, List.mem_cons_self .., rfl⟩

theorem gaveUp_stagingPath (e : Disk.Error) : f.GaveUp (.error (.disk ⟨f.stagingPath, e⟩)) :=
  ⟨_, List.mem_cons_of_mem _ (List.mem_cons_self ..), rfl⟩

theorem gaveUp_path (e : Disk.Error) : f.GaveUp (.error (.disk ⟨f.path, e⟩)) :=
  ⟨_, List.mem_cons_of_mem _ (List.mem_cons_of_mem _ (List.mem_cons_self ..)), rfl⟩

theorem ends_done {text : String} {x : Except StoreError Unit} {w : Workbench}
    (h : f.Ends text d (some x, w)) (hStopped : f.Ends text d (none, w)) (fates : Nat → Fate) :
    f.Ends text d ((Job.done x).runUnder fates w) := by
  rcases Job.runUnder_done x fates w with hRun | hRun
  · rw [hRun]
    exact h
  · rw [hRun]
    exact hStopped

theorem ends_gaveUp {text : String} {w : Workbench} (h : f.Begun d w.disk)
    {x : Except StoreError Unit} (hGaveUp : f.GaveUp x) (fates : Nat → Fate) :
    f.Ends text d ((Job.done x).runUnder fates w) := by
  refine ends_done (Or.inl ⟨h, ?_⟩) (Or.inl ⟨h, nofun⟩) fates
  rintro _ ⟨⟩
  exact hGaveUp

/-- A step of a save, which gives up where the step fails. -/
theorem ends_ask {text : String} {r : Request} {next : r.Reply → Job (Except StoreError Unit)}
    {w : Workbench} (hBroken : ∀ damage, f.Begun d (r.spoil w.disk damage))
    (hGivesUp : ∀ e reply, r.failure? e = some reply → ∃ x, f.GaveUp x ∧ next reply = .done x)
    (hNext : ∀ fates, f.Ends text d ((next (w.answer r).1).runUnder fates (w.answer r).2))
    (fates : Nat → Fate) : f.Ends text d ((Job.ask r next).runUnder fates w) := by
  rcases Job.runUnder_ask r next fates w with hRun | ⟨damage, hRun | ⟨e, reply, hReply, hRun⟩⟩
  · rw [hRun]
    exact hNext _
  · rw [hRun]
    exact Or.inl ⟨hBroken damage, nofun⟩
  · obtain ⟨x, hGaveUp, hDone⟩ := hGivesUp e reply hReply
    rw [hRun, hDone]
    exact ends_gaveUp (hBroken damage) hGaveUp _

/-- The last step of a save. -/
theorem ends_rename {text : String} {made written : Disk} {w : Workbench}
    (hMade : Disk.Furnished f.folder d made) (hWrite : made.write f.stagingPath text = .ok written)
    (hDisk : w.disk = written) (fates : Nat → Fate) : f.Ends text d ((do
      match ← Job.rename f.stagingPath f.path with
      | .error e => return .error (.disk ⟨f.path, e⟩)
      | .ok () => return .ok () : Job (Except StoreError Unit)).runUnder fates w) := by
  have hLocate : made.locate f.stagingPath = .ok f.stagingPlace := Disk.locate_of_write hWrite
  obtain ⟨hFree, hPut⟩ := Disk.write_eq_ok hWrite
  have hBegun : f.Begun d w.disk := ⟨made, hMade, Or.inr (by
    rw [hDisk, hPut]
    exact alike_put hLocate hFree _)⟩
  refine ends_ask (fun _ => hBegun) ?_ ?_ fates
  · intro e reply hReply
    cases hReply
    exact ⟨_, gaveUp_path e, rfl⟩
  · intro fates
    show f.Ends text d (Job.runUnder (match (w.change (w.disk.rename f.stagingPath f.path)).1 with
      | .error e => pure (.error (.disk ⟨f.path, e⟩))
      | .ok () => pure (.ok ())) fates (w.change (w.disk.rename f.stagingPath f.path)).2)
    cases hRename : w.disk.rename f.stagingPath f.path with
    | error e => exact ends_gaveUp hBegun (gaveUp_path e) fates
    | ok kept =>
      rw [hDisk] at hRename
      have hPath := Disk.free_of_rename hRename
      rw [hPut] at hPath
      obtain ⟨written', kept', hWrite', hRename', hRead, -⟩ :=
        exists_kept ⟨_, hLocate, hFree⟩ (Disk.free_of_put hFree hPath) text
      cases hWrite.symm.trans hWrite'
      cases hRename.symm.trans hRename'
      exact ends_done (x := .ok ()) (w := { w with disk := kept }) (Or.inr ⟨hRead, nofun⟩)
        (Or.inr ⟨hRead, nofun⟩) fates

/-- What a request leaves that was to write the staging file. -/
theorem begun_write {made : Disk} (hMade : Disk.Furnished f.folder d made) (text : String)
    (damage : Damage) : f.Begun d ((Request.write f.stagingPath text).spoil made damage) := by
  cases damage with
  | none | folders _ => exact ⟨made, hMade, Or.inl rfl⟩
  | torn left =>
    show f.Begun d (made.tear f.stagingPath left)
    rcases Disk.tear_eq made f.stagingPath left with hTear | ⟨p, hLocate, hFree, hTear⟩
    · rw [hTear]
      exact ⟨made, hMade, Or.inl rfl⟩
    · obtain rfl : f.stagingPlace = p := Disk.placeOf_of_locate hLocate
      rw [hTear]
      exact ⟨made, hMade, Or.inr (alike_put hLocate hFree left)⟩

/-- **Whatever becomes of a save**, it has only begun, or the new text stands in its place. -/
theorem save_runUnder (f : FolderStore) (s : Snapshot) (fates : Nat → Fate) (w : Workbench) :
    f.Ends s.toJson.pretty w.disk ((f.save s).runUnder fates w) := by
  refine ends_ask (r := .makeFolders f.folder) ?_ ?_ ?_ fates
  · intro damage
    cases damage with
    | folders skipped =>
      exact ⟨_, Disk.furnished_beginFolders w.disk f.folder skipped, Or.inl rfl⟩
    | none | torn _ => exact ⟨_, Disk.furnished_refl f.folder w.disk, Or.inl rfl⟩
  · intro e reply hReply
    cases hReply
    exact ⟨_, gaveUp_folder e, rfl⟩
  · intro fates
    have hMade := Disk.furnished_beginFolders w.disk f.folder 0
    rw [Disk.beginFolders_zero] at hMade
    show f.Ends _ _ (Job.runUnder (match (w.disk.makeFolders f.folder).1 with
      | .error e => _
      | .ok () => _) fates { w with disk := (w.disk.makeFolders f.folder).2 })
    cases hMake : w.disk.makeFolders f.folder with
    | mk r made =>
      rw [hMake] at hMade
      cases r with
      | error e => exact ends_gaveUp ⟨made, hMade, Or.inl rfl⟩ (gaveUp_folder e) fates
      | ok =>
        refine ends_ask (r := .write f.stagingPath s.toJson.pretty)
          (begun_write hMade s.toJson.pretty) ?_ ?_ fates
        · intro e reply hReply
          cases hReply
          exact ⟨_, gaveUp_stagingPath e, rfl⟩
        · intro fates
          show f.Ends _ _ (Job.runUnder (match
              (Workbench.change _ (made.write f.stagingPath s.toJson.pretty)).1 with
            | .error e => _
            | .ok () => _) fates (Workbench.change _ (made.write f.stagingPath s.toJson.pretty)).2)
          cases hWrite : made.write f.stagingPath s.toJson.pretty with
          | error e => exact ends_gaveUp ⟨made, hMade, Or.inl rfl⟩ (gaveUp_stagingPath e) fates
          | ok written => exact ends_rename hMade hWrite rfl fates

/-- **A save that fails says at which path and why**, whatever befalls it. -/
theorem failure_of_save {s : Snapshot} {fates : Nat → Fate} {w : Workbench} {e : StoreError}
    (h : ((f.save s).runUnder fates w).1 = some (.error e)) :
    ∃ failure : Disk.Failure, failure.path ∈ f.paths ∧ e = .disk failure ∧
      e.message? = some ("failed to access " ++ failure.text) := by
  rcases f.save_runUnder s fates w with ⟨-, hGaveUp⟩ | ⟨-, hSound⟩
  · obtain ⟨failure, hPath, hError⟩ := hGaveUp _ h
    cases hError
    exact ⟨failure, hPath, rfl, rfl⟩
  · exact absurd h (hSound e)

/-! ### All or nothing -/

/-- What is loaded after a save is what was loaded before or what the new text reads as, and it is
what was loaded before if the save answered with an error. -/
def AllOrNothing (f : FolderStore) (s : Snapshot) (fates : Nat → Fate) (w : Workbench) : Prop :=
  let ended := (f.save s).runUnder fates w
  let before := (f.load.run w).1
  let after := (f.load.run ended.2).1
  (after = before ∨ after = (Snapshot.ofStored s.toJson.pretty).map some) ∧
    ∀ e, ended.1 = some (.error e) → after = before

theorem allOrNothing_of_steady (f : FolderStore) (s : Snapshot) (fates : Nat → Fate)
    {w : Workbench} (hRooted : w.disk.Rooted) (hSteady : w.disk.Steady f.folder) :
    f.AllOrNothing s fates w := by
  rcases f.save_runUnder s fates w with ⟨hBegun, -⟩ | ⟨hRead, hSound⟩
  · have hSame := load_run_eq (hBegun.read_eq hRooted hSteady)
    exact ⟨Or.inl hSame, fun _ _ => hSame⟩
  · exact ⟨Or.inr (congrArg Prod.fst (load_run hRead)), fun e he => absurd he (hSound e)⟩

theorem fileAt?_of_read {path text : String} (h : d.read path = .ok text) :
    d.fileAt? (Disk.placeOf path) = some (some text) := by
  obtain ⟨p, hPath, hAt⟩ := Disk.exists_file_of_read h
  rw [Disk.placeOf_of_locate hPath, Disk.fileAt?, hAt]

/-- **Saving is all or nothing.** Wherever a save fails or stops, the snapshot's file is what it was
or holds the new text, and it is what it was if the save answered with an error. The same holds of
what a following load gives, if the path of the store is steady. A staging file that is left over
makes no difference to any later use of the store, whatever befalls that.

All this is said of disks without links. Were the staging file a link to the snapshot, the text would
be written through it, and a save broken off then would leave the snapshot torn. -/
theorem saving_is_all_or_nothing (f : FolderStore) (s : Snapshot) (fates : Nat → Fate)
    {w : Workbench} (hRooted : w.disk.Rooted) :
    let ended := (f.save s).runUnder fates w
    (ended.2.disk.fileAt? f.place = w.disk.fileAt? f.place ∨
        ended.2.disk.fileAt? f.place = some (some s.toJson.pretty) ∧
          ∀ e, ended.1 ≠ some (.error e)) ∧
      (w.disk.Steady f.folder → f.AllOrNothing s fates w) ∧
      ∀ (v : Workbench) (p : Disk.Place) (left : Option String),
        v.disk.locate f.stagingPath = .ok p → v.disk.at? p = some (.file left) →
        ∀ uses, (f.useAll v uses).1 = (f.useAll { v with disk := v.disk.drop p } uses).1 := by
  refine ⟨?_, allOrNothing_of_steady f s fates hRooted, ?_⟩
  · rcases f.save_runUnder s fates w with ⟨hBegun, -⟩ | ⟨hRead, hSound⟩
    · exact Or.inl hBegun.fileAt?_eq
    · exact Or.inr ⟨fileAt?_of_read hRead, hSound⟩
  · intro v p left hFound hLeft uses
    obtain rfl : f.stagingPlace = p := Disk.placeOf_of_locate hFound
    exact useAll_alike uses (alike_drop hFound (by rw [hLeft]; nofun))

/-- A workbench with a disk. -/
def bench (d : Disk) : Workbench :=
  ⟨d, fun _ => "", fun _ => Instant.epoch, 0, 0⟩

/-- What the system says when a disk is full. -/
def diskFull : Disk.Error :=
  .blocked (.other "No space left on device (os error 28)")

/-- Nothing is loaded after a first save that fails while the staging file is written. -/
theorem torn_save_leaves_nothing :
    let f : FolderStore := ⟨"home/store"⟩
    let w := bench Disk.empty
    let fates := fun i => if i = 1 then Fate.fails (.torn (some "\x7b")) diskFull else .sound
    let ended := (f.save ⟨[], "", ""⟩).runUnder fates w
    w.disk.Rooted ∧ w.disk.Steady f.folder ∧
      ended.2.disk.fileAt? ["home", "store", stagingName] = some (some "\x7b") ∧
      (f.load.run ended.2).1 = .ok none := by
  intro f w fates ended
  have hSteady : w.disk.Steady f.folder := by
    intro front name back hCut _
    have hMem : name ∈ Text.cut '/' f.folder := by
      rw [hCut]
      exact List.mem_append_right front (List.mem_cons_self ..)
    have hPlain : ∀ n ∈ Text.cut '/' f.folder,
        n ≠ ".." ∧ n.utf8ByteSize ≤ Disk.maxNameSize := by decide
    exact hPlain name hMem
  obtain ⟨-, hWhole, -⟩ := saving_is_all_or_nothing f ⟨[], "", ""⟩ fates Disk.rooted_empty (w := w)
  have hFailed : ended.1 = some (.error (.disk ⟨f.stagingPath, diskFull⟩)) := by decide
  refine ⟨Disk.rooted_empty, hSteady, by decide, ?_⟩
  rw [(hWhole hSteady).2 _ hFailed]
  decide

/-- **A save that fails may show where the path is not steady.** The folder that it makes here is
one from which the path leads back to a snapshot. -/
theorem unsteady_path_shows :
    let w := bench ⟨[(["store"], .folder), (["store", fileName], .file (some "\x7b\x7d")),
      (["store", stagingName], .folder)]⟩
    w.disk.Rooted ∧
      ¬(FolderStore.mk "x/../store").AllOrNothing ⟨[], "", ""⟩ (fun _ => .sound) w := by
  intro w
  refine ⟨Disk.rooted_of_entries (by decide), ?_⟩
  intro hWhole
  have hFailed : (((FolderStore.mk "x/../store").save ⟨[], "", ""⟩).runUnder (fun _ => .sound) w).1 =
      some (.error (.disk ⟨"x/../store/" ++ stagingName, .blocked .folder⟩)) := by decide
  have hSame := hWhole.2 _ hFailed
  revert hSame
  decide

end FolderStore

end DesignSystem
