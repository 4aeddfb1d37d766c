import DesignSystem.Proofs.Studio.Folder
import DesignSystem.Proofs.Furnished
/-!
# Staging files

A folder store writes a staging file beside the snapshot and looks at neither its text nor whether
it is there before: every save writes it anew. So on two disks that differ in nothing else
(`FolderStore.Alike`) the store does the same, also where it is broken off, and the disks still
differ in nothing else (`FolderStore.useAll_alike`).
-/

namespace DesignSystem

/-! ### The staging file -/

namespace FolderStore

variable {f : FolderStore} {d d' : Disk}

theorem isPlain_fileName : Disk.IsPlain fileName := by decide

theorem isPlain_stagingName : Disk.IsPlain stagingName := by decide

theorem stagingPath_eq (f : FolderStore) : f.stagingPath = f.path ++ ".tmp" := by
  have hFirst : stagingName.toList.head? = fileName.toList.head? := by decide
  unfold stagingPath path Disk.within
  rw [hFirst]
  split
  · rfl
  · split
    · exact (String.append_assoc ..).symm
    · exact (String.append_assoc ..).symm

theorem path_ne_empty (f : FolderStore) : f.path ≠ "" := by
  intro hEmpty
  have hPlace := f.place_eq
  rw [place, hEmpty] at hPlace
  cases hFolder : Disk.placeOf f.folder <;> rw [hFolder] at hPlace <;> cases hPlace

/-- The place of the staging file. -/
def stagingPlace (f : FolderStore) : Disk.Place :=
  Disk.placeOf f.stagingPath

theorem place_ne_stagingPlace (f : FolderStore) : f.place ≠ f.stagingPlace := by
  rw [place_eq, stagingPlace, stagingPath, Disk.placeOf_within _ isPlain_stagingName]
  intro hSame
  obtain ⟨-, hName⟩ := List.append_inj' hSame rfl
  exact absurd (List.singleton_inj.mp hName) (by decide)

/-- Where the staging file is found, so is the snapshot beside it. -/
theorem locate_path (h : d.locate f.stagingPath = .ok f.stagingPlace) :
    d.locate f.path = .ok f.place := by
  obtain ⟨names, hNames, -⟩ := exists_of_bind_eq_ok h
  by_cases hEmpty : f.folder = ""
  · obtain ⟨folder⟩ := f
    subst hEmpty
    rfl
  · obtain ⟨q, hFolder, hAt⟩ :=
      Disk.exists_folder_of_locate hEmpty isPlain_stagingName.noSlash h
    rw [stagingPath_eq] at hNames
    have hPath := Disk.locate_within hFolder hAt hEmpty isPlain_fileName (by decide)
      (Disk.namesOf_of_append f.path_ne_empty hNames)
    exact hPath.trans (congrArg _ (Disk.placeOf_of_locate hPath).symm)

/-- Two disks on which the staging file of a store can be written and that differ in nothing but
that file. -/
structure Alike (f : FolderStore) (d d' : Disk) : Prop where
  found : d.locate f.stagingPath = .ok f.stagingPlace
  free : d.at? f.stagingPlace ≠ some .folder
  free' : d'.at? f.stagingPlace ≠ some .folder
  same : ∀ p, p ≠ f.stagingPlace → d'.at? p = d.at? p

/-- A disk with something else as the staging file. -/
theorem alike_of_change (h : d.locate f.stagingPath = .ok f.stagingPlace)
    (hFree : d.at? f.stagingPlace ≠ some .folder) {x : Option Disk.Entry}
    (hNew : ∀ p, d'.at? p = if p = f.stagingPlace then x else d.at? p) (hx : x ≠ some .folder) :
    f.Alike d d' := by
  refine ⟨h, hFree, ?_, ?_⟩
  · rw [hNew, if_pos rfl]
    exact hx
  · intro p hp
    rw [hNew, if_neg hp]

theorem alike_put (h : d.locate f.stagingPath = .ok f.stagingPlace)
    (hFree : d.at? f.stagingPlace ≠ some .folder) (text : Option String) :
    f.Alike d (d.put f.stagingPlace (.file text)) := by
  have hRoot := Disk.ne_root_of_not_folder hFree
  have hNew := fun p => Disk.at?_put d f.stagingPlace p (.file text) hRoot
  exact alike_of_change h hFree hNew nofun

theorem alike_drop (h : d.locate f.stagingPath = .ok f.stagingPlace)
    (hFree : d.at? f.stagingPlace ≠ some .folder) : f.Alike d (d.drop f.stagingPlace) := by
  have hRoot := Disk.ne_root_of_not_folder hFree
  have hNew := fun p => Disk.at?_drop d f.stagingPlace p hRoot
  exact alike_of_change h hFree hNew nofun

theorem Alike.extends (h : f.Alike d d') : d.Extends d' := by
  intro p hp
  rw [h.same p]
  · exact hp
  · rintro rfl
    exact h.free hp

theorem Alike.symm (h : f.Alike d d') : f.Alike d' d :=
  ⟨Disk.locate_of_extends h.extends h.found, h.free', h.free, fun p hp => (h.same p hp).symm⟩

theorem Alike.at?_place (h : f.Alike d d') : d'.at? f.place = d.at? f.place :=
  h.same _ f.place_ne_stagingPlace

/-- **The staging file does not show** in what is read. -/
theorem Alike.read_eq (h : f.Alike d d') : d'.read f.path = d.read f.path := by
  rw [Disk.read, Disk.read, locate_path h.found, locate_path h.symm.found]
  simp only [bind, Except.bind, h.at?_place]

theorem load_run_eq {w w' : Workbench} (h : w'.disk.read f.path = w.disk.read f.path) :
    (f.load.run w').1 = (f.load.run w).1 := by
  rw [load, Job.run_read_bind, Job.run_read_bind, h]
  cases w.disk.read f.path with
  | ok text => rfl
  | error e => cases e <;> rfl

/-! ### Steps of the store -/

/-- Changes that keep all folders and do the same to everything else. -/
theorem Alike.change (h : f.Alike d d') {e e' : Disk} (hExtends : d.Extends e)
    (hFree : e.at? f.stagingPlace ≠ some .folder) (hFree' : e'.at? f.stagingPlace ≠ some .folder)
    (hSame : ∀ p, p ≠ f.stagingPlace → e'.at? p = e.at? p) : f.Alike e e' :=
  ⟨Disk.locate_of_extends hExtends h.found, hFree, hFree', hSame⟩

/-- The same change at one place of both disks. -/
theorem Alike.change_at (h : f.Alike d d') {e e' : Disk} {p : Disk.Place} {x : Option Disk.Entry}
    (hExtends : d.Extends e) (hNew : ∀ q, e.at? q = if q = p then x else d.at? q)
    (hNew' : ∀ q, e'.at? q = if q = p then x else d'.at? q) (hx : x ≠ some .folder) :
    f.Alike e e' := by
  have hFree : ∀ y : Option Disk.Entry, y ≠ some .folder →
      (if f.stagingPlace = p then x else y) ≠ some .folder := by
    intro y hy
    split
    · exact hx
    · exact hy
  refine h.change hExtends ?_ ?_ ?_
  · rw [hNew]
    exact hFree _ h.free
  · rw [hNew']
    exact hFree _ h.free'
  · intro q hq
    rw [hNew, hNew', h.same q hq]

theorem Alike.put (h : f.Alike d d') {p : Disk.Place} (hAt : d.at? p ≠ some .folder)
    (text : Option String) : f.Alike (d.put p (.file text)) (d'.put p (.file text)) := by
  have hRoot := Disk.ne_root_of_not_folder hAt
  have hNew := fun q => Disk.at?_put d p q (.file text) hRoot
  have hNew' := fun q => Disk.at?_put d' p q (.file text) hRoot
  exact h.change_at (Disk.extends_put hAt _) hNew hNew' nofun

theorem Alike.drop (h : f.Alike d d') {p : Disk.Place} (hAt : d.at? p ≠ some .folder) :
    f.Alike (d.drop p) (d'.drop p) := by
  have hRoot := Disk.ne_root_of_not_folder hAt
  have hNew := fun q => Disk.at?_drop d p q hRoot
  have hNew' := fun q => Disk.at?_drop d' p q hRoot
  exact h.change_at (Disk.extends_drop hAt) hNew hNew' nofun

/-- Where the staging file can be written the folder is there. -/
theorem makeFolders_of_found (h : d.locate f.stagingPath = .ok f.stagingPlace) :
    d.makeFolders f.folder = (.ok (), d) :=
  Disk.makeFolders_of_within isPlain_stagingName.noSlash h

theorem at?_beginFolders_of_found (h : d.locate f.stagingPath = .ok f.stagingPlace)
    (skipped : Nat) (p : Disk.Place) : (d.beginFolders f.folder skipped).at? p = d.at? p :=
  (Disk.furnished_beginFolders d f.folder skipped).at?_eq
    (fun _ hq => Disk.folder_of_mem_way_of_within isPlain_stagingName.noSlash h hq) p

theorem Alike.beginFolders (h : f.Alike d d') (skipped : Nat) :
    f.Alike (d.beginFolders f.folder skipped) (d'.beginFolders f.folder skipped) := by
  have hAt := at?_beginFolders_of_found h.found skipped
  have hAt' := at?_beginFolders_of_found h.symm.found skipped
  refine h.change (fun p hp => ?_) ?_ ?_ fun p hp => ?_
  · rw [hAt]
    exact hp
  · rw [hAt]
    exact h.free
  · rw [hAt']
    exact h.free'
  · rw [hAt, hAt', h.same p hp]

theorem Alike.tear (h : f.Alike d d') (left : Option String) :
    f.Alike (d.tear f.stagingPath left) (d'.tear f.stagingPath left) := by
  have hTear : ∀ {e : Disk}, e.locate f.stagingPath = .ok f.stagingPlace →
      e.at? f.stagingPlace ≠ some .folder →
      e.tear f.stagingPath left = e.put f.stagingPlace (.file left) := by
    intro e hFound hFree
    simp only [Disk.tear, hFound, if_neg hFree]
  rw [hTear h.found h.free, hTear h.symm.found h.free']
  exact h.put h.free left

/-! ### Side by side -/

/-- The same came out, and the disks still differ in nothing but the staging file. -/
def Agree {α : Type} (f : FolderStore) (x y : Option α × Workbench) : Prop :=
  x.1 = y.1 ∧ f.Alike x.2.disk y.2.disk

section Jobs

variable {α : Type} {w v : Workbench}

theorem agree_done (h : f.Alike w.disk v.disk) (a : α) (fates : Nat → Fate) :
    f.Agree ((Job.done a).runUnder fates w) ((Job.done a).runUnder fates v) := by
  unfold Job.runUnder
  cases fates 0 with
  | sound | fails _ _ | stops _ => exact ⟨rfl, h⟩

/-- A request that is answered alike, with what is known of the disks after each answer. -/
theorem agree_ask {r : Request} {next : r.Reply → Job α} (Then : r.Reply → Disk → Disk → Prop)
    (hReply : (w.answer r).1 = (v.answer r).1)
    (hAnswer : Then (w.answer r).1 (w.answer r).2.disk (v.answer r).2.disk)
    (hSpoil : ∀ damage, f.Alike (r.spoil w.disk damage) (r.spoil v.disk damage))
    (hFails : ∀ e reply, r.failure? e = some reply → ∀ d d', f.Alike d d' → Then reply d d')
    (hNext : ∀ reply fates (w v : Workbench), Then reply w.disk v.disk →
      f.Agree ((next reply).runUnder fates w) ((next reply).runUnder fates v))
    (fates : Nat → Fate) :
    f.Agree ((Job.ask r next).runUnder fates w) ((Job.ask r next).runUnder fates v) := by
  have hSound : f.Agree
      ((next (w.answer r).1).runUnder (fun i => fates (i + 1)) (w.answer r).2)
      ((next (v.answer r).1).runUnder (fun i => fates (i + 1)) (v.answer r).2) := by
    rw [← hReply]
    exact hNext _ _ _ _ hAnswer
  rw [Job.runUnder, Job.runUnder]
  cases fates 0 with
  | sound => exact hSound
  | stops damage => exact ⟨rfl, hSpoil damage⟩
  | fails damage e =>
    cases hReply : r.failure? e with
    | none =>
      simp only [hReply]
      exact hSound
    | some reply =>
      simp only [hReply]
      exact hNext _ _ _ _ (hFails e reply hReply _ _ (hSpoil damage))

theorem agree_load (h : f.Alike w.disk v.disk) (fates : Nat → Fate) :
    f.Agree (f.load.runUnder fates w) (f.load.runUnder fates v) := by
  refine agree_ask (r := .read f.path) (fun _ => f.Alike) h.read_eq.symm h (fun _ => h)
    (fun _ _ _ _ _ h => h) (fun reply fates w v h => ?_) fates
  rcases reply with e | text
  · cases e <;> exact agree_done h _ fates
  · exact agree_done h _ fates

/-- Two changes that fail in the same way or come to disks that still differ in nothing else. -/
theorem change_agree (h : f.Alike w.disk v.disk) {x y : Except Disk.Error Disk}
    (hBoth : (∃ e, x = .error e ∧ y = .error e) ∨
      ∃ d d', x = .ok d ∧ y = .ok d' ∧ f.Alike d d') :
    (w.change x).1 = (v.change y).1 ∧ f.Alike (w.change x).2.disk (v.change y).2.disk := by
  rcases hBoth with ⟨e, rfl, rfl⟩ | ⟨d, d', rfl, rfl, hAlike⟩
  · exact ⟨rfl, h⟩
  · exact ⟨rfl, hAlike⟩

theorem agree_clear (h : f.Alike w.disk v.disk) (fates : Nat → Fate) :
    f.Agree (f.clear.runUnder fates w) (f.clear.runUnder fates v) := by
  have hRemove : (∃ e, w.disk.remove f.path = .error e ∧ v.disk.remove f.path = .error e) ∨
      ∃ d d', w.disk.remove f.path = .ok d ∧ v.disk.remove f.path = .ok d' ∧ f.Alike d d' := by
    simp only [Disk.remove, locate_path h.found, locate_path h.symm.found, bind, Except.bind,
      h.at?_place]
    cases hAt : w.disk.at? f.place with
    | none => exact Or.inl ⟨_, rfl, rfl⟩
    | some e =>
      cases e with
      | folder => exact Or.inl ⟨_, rfl, rfl⟩
      | file text => exact Or.inr ⟨_, _, rfl, rfl, h.drop (by rw [hAt]; nofun)⟩
  obtain ⟨hReply, hDisk⟩ := change_agree h hRemove
  refine agree_ask (r := .remove f.path) (fun _ => f.Alike) hReply hDisk (fun _ => h)
    (fun _ _ _ _ _ h => h) (fun reply fates w v h => ?_) fates
  rcases reply with e | -
  · cases e <;> exact agree_done h _ fates
  · exact agree_done h _ fates

/-- The last step of a save, from the same text in both staging files. -/
theorem agree_rename (h : f.Alike w.disk v.disk) {text : Option String}
    (hText : w.disk.at? f.stagingPlace = some (.file text))
    (hText' : v.disk.at? f.stagingPlace = some (.file text)) (fates : Nat → Fate) :
    let last : Job (Except StoreError Unit) := do
      match ← Job.rename f.stagingPath f.path with
      | .error e => return .error (.disk ⟨f.path, e⟩)
      | .ok () => return .ok ()
    f.Agree (last.runUnder fates w) (last.runUnder fates v) := by
  have hFound := locate_path h.found
  have hFound' := locate_path h.symm.found
  have hRename : (∃ e, w.disk.rename f.stagingPath f.path = .error e ∧
        v.disk.rename f.stagingPath f.path = .error e) ∨
      ∃ d d', w.disk.rename f.stagingPath f.path = .ok d ∧
        v.disk.rename f.stagingPath f.path = .ok d' ∧ f.Alike d d' := by
    by_cases hFolder : w.disk.at? f.place = some .folder
    · refine Or.inl ⟨.blocked .folder, ?_, ?_⟩
      · simp only [Disk.rename, h.found, hFound, bind, Except.bind, hText, hFolder]
      · simp only [Disk.rename, h.symm.found, hFound', bind, Except.bind, hText', h.at?_place,
          hFolder]
    · have hFolder' : v.disk.at? f.place ≠ some .folder := by
        rw [h.at?_place]
        exact hFolder
      refine Or.inr ⟨_, _, Disk.rename_of_free h.found hFound hText hFolder,
        Disk.rename_of_free h.symm.found hFound' hText' hFolder', (h.drop h.free).put ?_ text⟩
      rw [Disk.at?_drop _ _ _ (Disk.ne_root_of_not_folder h.free), if_neg f.place_ne_stagingPlace]
      exact hFolder
  obtain ⟨hReply, hDisk⟩ := change_agree h hRename
  refine agree_ask (r := .rename f.stagingPath f.path) (fun _ => f.Alike) hReply hDisk
    (fun _ => h) (fun _ _ _ _ _ h => h) (fun reply fates w v h => ?_) fates
  rcases reply with e | - <;> exact agree_done h _ fates

/-- Whatever the staging files held before, after writing they hold the same. -/
theorem agree_write (h : f.Alike w.disk v.disk) (text : String) (fates : Nat → Fate) :
    let rest : Job (Except StoreError Unit) := do
      match ← Job.write f.stagingPath text with
      | .error e => return .error (.disk ⟨f.stagingPath, e⟩)
      | .ok () =>
        match ← Job.rename f.stagingPath f.path with
        | .error e => return .error (.disk ⟨f.path, e⟩)
        | .ok () => return .ok ()
    f.Agree (rest.runUnder fates w) (rest.runUnder fates v) := by
  have hWrite := Disk.write_of_free h.found h.free text
  have hWrite' := Disk.write_of_free h.symm.found h.free' text
  have hText : ∀ {d : Disk}, d.at? f.stagingPlace ≠ some .folder →
      (d.put f.stagingPlace (.file (some text))).at? f.stagingPlace =
        some (.file (some text)) := by
    intro d hFree
    rw [Disk.at?_put d _ _ _ (Disk.ne_root_of_not_folder hFree), if_pos rfl]
  obtain ⟨hReply, hDisk⟩ :=
    change_agree h (Or.inr ⟨_, _, hWrite, hWrite', h.put h.free (some text)⟩)
  refine agree_ask (r := .write f.stagingPath text)
    (fun reply d d' => f.Alike d d' ∧ (reply = .ok () →
      d.at? f.stagingPlace = some (.file (some text)) ∧
      d'.at? f.stagingPlace = some (.file (some text))))
    hReply ⟨hDisk, fun _ => ?_⟩ ?_ ?_ ?_ fates
  · simp only [Workbench.answer, hWrite, hWrite']
    exact ⟨hText h.free, hText h.free'⟩
  · intro damage
    cases damage with
    | torn left => exact h.tear left
    | none | folders _ => exact h
  · intro e reply hFailed d d' hAlike
    cases hFailed
    exact ⟨hAlike, nofun⟩
  · intro reply fates w v hThen
    rcases reply with e | ⟨⟩
    · exact agree_done hThen.1 _ fates
    · obtain ⟨hHere, hThere⟩ := hThen.2 rfl
      exact agree_rename hThen.1 hHere hThere fates

theorem agree_save (h : f.Alike w.disk v.disk) (s : Snapshot) (fates : Nat → Fate) :
    f.Agree ((f.save s).runUnder fates w) ((f.save s).runUnder fates v) := by
  have hMade := makeFolders_of_found h.found
  have hMade' := makeFolders_of_found h.symm.found
  refine agree_ask (r := .makeFolders f.folder) (fun _ => f.Alike) ?_ ?_ ?_
    (fun _ _ _ _ _ h => h) (fun reply fates w v h => ?_) fates
  · show (w.disk.makeFolders f.folder).1 = (v.disk.makeFolders f.folder).1
    rw [hMade, hMade']
  · show f.Alike (w.disk.makeFolders f.folder).2 (v.disk.makeFolders f.folder).2
    rw [hMade, hMade']
    exact h
  · intro damage
    cases damage with
    | folders skipped => exact h.beginFolders skipped
    | none | torn _ => exact h
  · rcases reply with e | -
    · exact agree_done h _ fates
    · exact agree_write h s.toJson.pretty fates

end Jobs

/-! ### Any use of the store -/

/-- What a store is used for. -/
inductive Use where
  | load
  | save (snapshot : Snapshot)
  | clear

/-- What comes of a use; nothing if it is stopped. -/
inductive Outcome where
  | loaded (result : Option (Except StoreError (Option Snapshot)))
  | finished (result : Option (Except StoreError Unit))

/-- Uses the store once. -/
def useUnder (f : FolderStore) (fates : Nat → Fate) (w : Workbench) : Use → Outcome × Workbench
  | .load => let ended := f.load.runUnder fates w; (.loaded ended.1, ended.2)
  | .save s => let ended := (f.save s).runUnder fates w; (.finished ended.1, ended.2)
  | .clear => let ended := f.clear.runUnder fates w; (.finished ended.1, ended.2)

/-- Uses the store again and again, each time with the fates of the requests. -/
def useAll (f : FolderStore) (w : Workbench) :
    List (Use × (Nat → Fate)) → List Outcome × Workbench
  | [] => ([], w)
  | (use, fates) :: rest =>
    let first := f.useUnder fates w use
    let others := f.useAll first.2 rest
    (first.1 :: others.1, others.2)

theorem useUnder_alike {w v : Workbench} (h : f.Alike w.disk v.disk) (use : Use)
    (fates : Nat → Fate) : (f.useUnder fates w use).1 = (f.useUnder fates v use).1 ∧
      f.Alike (f.useUnder fates w use).2.disk (f.useUnder fates v use).2.disk := by
  cases use with
  | load =>
    obtain ⟨hResult, hDisk⟩ := agree_load h fates
    exact ⟨congrArg Outcome.loaded hResult, hDisk⟩
  | save s =>
    obtain ⟨hResult, hDisk⟩ := agree_save h s fates
    exact ⟨congrArg Outcome.finished hResult, hDisk⟩
  | clear =>
    obtain ⟨hResult, hDisk⟩ := agree_clear h fates
    exact ⟨congrArg Outcome.finished hResult, hDisk⟩

/-- **The staging file makes no difference** to any uses of the store, whatever befalls them. -/
theorem useAll_alike (uses : List (Use × (Nat → Fate))) {w v : Workbench}
    (h : f.Alike w.disk v.disk) : (f.useAll w uses).1 = (f.useAll v uses).1 := by
  induction uses generalizing w v with
  | nil => rfl
  | cons use uses ih =>
    obtain ⟨hResult, hDisk⟩ := useUnder_alike h use.1 use.2
    exact congrArg₂ List.cons hResult (ih hDisk)

end FolderStore

end DesignSystem
