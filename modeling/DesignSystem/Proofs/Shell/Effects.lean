import DesignSystem.Proofs.Generation.FileName
import DesignSystem.Proofs.Studio.Folder
import DesignSystem.Shell.Run
/-!
# What commands leave alone

A command that reads tokens or prints a table has no business in the folder of a studio, and one
that fails must not leave half of its work there. Both are read off the jobs that commands are. A
job keeps a view of the disk if the view is the same after it (`Job.Keeps`), and an action keeps it
unless it saves (`KeepsUnlessSaving`) if it does so whenever it fails before. Both are closed under
going on, so the view follows a command through all its steps, and it does not matter at which of
them the command fails.

Three views are of interest for a store: the whole disk, what stands at the place of its snapshot,
and the file there. They differ in what they ask of the paths that a command is told to write to,
and `store_kept` says of each what follows for the store.
-/

namespace DesignSystem

/-! ### Jobs -/

namespace Job

variable {α β γ : Type} {view : Disk → γ}

/-- A view of the disk is the same after the job as before. -/
def Keeps (view : Disk → γ) (j : Job α) : Prop :=
  ∀ w, view (j.run w).2.disk = view w.disk

theorem keeps_pure (a : α) : Keeps view (pure a) :=
  fun _ => rfl

theorem Keeps.bind {j : Job α} {f : α → Job β} (h : j.Keeps view) (hNext : ∀ a, (f a).Keeps view) :
    (j >>= f).Keeps view := by
  intro w
  rw [run_bind]
  exact (hNext _ _).trans (h w)

theorem keeps_read (path : String) : (read path).Keeps view :=
  fun _ => rfl

theorem keeps_freshId : freshId.Keeps view :=
  fun _ => rfl

theorem keeps_now : now.Keeps view :=
  fun _ => rfl

theorem keeps_makeFolders {path : String} (h : ∀ d : Disk, view (d.makeFolders path).2 = view d) :
    (makeFolders path).Keeps view :=
  fun w => h w.disk

theorem keeps_write {path text : String}
    (h : ∀ d d' : Disk, d.write path text = .ok d' → view d' = view d) :
    (write path text).Keeps view := by
  intro w
  show view (w.change (w.disk.write path text)).2.disk = view w.disk
  cases hWrite : w.disk.write path text with
  | error e => rfl
  | ok d => exact h _ _ hWrite

end Job

open Job (keeps_pure keeps_read keeps_freshId keeps_now)

section Opening

variable {γ : Type} {view : Disk → γ}

theorem keeps_freshIds : Brand.freshIds.Keeps view :=
  keeps_freshId.bind fun _ => keeps_freshId.bind fun _ => keeps_freshId.bind fun _ => keeps_pure _

theorem FolderStore.keeps_load (f : FolderStore) : f.load.Keeps view := by
  refine (keeps_read _).bind fun r => ?_
  rcases r with e | text
  · cases e <;> exact keeps_pure _
  · exact keeps_pure _

/-- Opening a studio only reads, whatever is found. -/
theorem Studio.keeps_ofLoaded (r : Except StoreError (Option Snapshot)) :
    (ofLoaded r).Keeps view := by
  rcases r with e | found | s
  · exact keeps_pure _
  · exact (keeps_now.bind fun _ => keeps_freshIds.bind fun _ => keeps_pure _).bind
      fun _ => keeps_pure _
  · rw [ofLoaded]
    cases ofSnapshot s with
    | error r => exact keeps_pure _
    | ok studio => exact keeps_pure _

theorem Tree.keeps_load (path : String) : (Tree.load path).Keeps view := by
  rw [Tree.load]
  cases format? path with
  | none => exact keeps_pure _
  | some format =>
    refine (keeps_read _).bind fun r => ?_
    rcases r with e | text
    · exact keeps_pure _
    · exact keeps_pure _

end Opening

namespace Shell

/-! ### Actions -/

section Actions

variable {α β γ ε : Type} {view : Disk → γ}

theorem run_bind_ok {a : Action α} {x : α} {w w' : Workbench} (h : a.run.run w = (.ok x, w'))
    (f : α → Action β) : (a >>= f).run.run w = (f x).run.run w' := by
  have hRun : (a >>= f).run.run w = Job.run (ExceptT.bindCont f (a.run.run w).1) (a.run.run w).2 :=
    Job.run_bind ..
  rw [hRun, h]
  rfl

theorem run_bind_error {a : Action α} {e : Failure} {w w' : Workbench}
    (h : a.run.run w = (.error e, w')) (f : α → Action β) :
    (a >>= f).run.run w = (.error e, w') := by
  have hRun : (a >>= f).run.run w = Job.run (ExceptT.bindCont f (a.run.run w).1) (a.run.run w).2 :=
    Job.run_bind ..
  rw [hRun, h]
  rfl

theorem run_attempt (failure : ε → Failure) (job : Job (Except ε α)) (w : Workbench) :
    (attempt failure job).run.run w = ((job.run w).1.mapError failure, (job.run w).2) :=
  Job.run_bind ..

/-- A view of the disk is the same after the action as before, whether it fails or not. -/
def Keeps (view : Disk → γ) (a : Action α) : Prop :=
  Job.Keeps view a.run

theorem keeps_return (x : α) : Keeps view (return x) :=
  keeps_pure _

theorem keeps_lift (r : Except Failure α) : Keeps view (liftM r) :=
  keeps_pure _

theorem Keeps.bind {a : Action α} {f : α → Action β} (h : Keeps view a)
    (hNext : ∀ x, Keeps view (f x)) : Keeps view (a >>= f) := by
  refine Job.Keeps.bind h fun r => ?_
  rcases r with e | x
  · exact keeps_pure _
  · exact hNext x

theorem keeps_attempt {failure : ε → Failure} {job : Job (Except ε α)} (h : job.Keeps view) :
    Keeps view (attempt failure job) :=
  Job.Keeps.bind h fun _ => keeps_pure _

theorem keeps_job {job : Job α} (h : job.Keeps view) : Keeps view (liftM job) :=
  Job.Keeps.bind h fun _ => keeps_pure _

/-- Whether a failure comes from before the saving of a studio. -/
def Failure.early : Failure → Bool
  | .notSaved _ => false
  | _ => true

/-- The view is the same after the action as before if it fails, unless it fails at saving. -/
def KeepsUnlessSaving (view : Disk → γ) (a : Action α) : Prop :=
  ∀ w e, (a.run.run w).1 = .error e → e.early = true → view (a.run.run w).2.disk = view w.disk

theorem Keeps.unlessSaving {a : Action α} (h : Keeps view a) : KeepsUnlessSaving view a :=
  fun w _ _ _ => h w

theorem Keeps.bindUnlessSaving {a : Action α} {f : α → Action β} (h : Keeps view a)
    (hNext : ∀ x, KeepsUnlessSaving view (f x)) : KeepsUnlessSaving view (a >>= f) := by
  intro w e hError hEarly
  cases hFirst : a.run.run w with
  | mk r w' =>
    have hKept : view w'.disk = view w.disk := by
      have hKeeps := h w
      rwa [hFirst] at hKeeps
    cases r with
    | error e' =>
      rw [run_bind_error hFirst]
      exact hKept
    | ok x =>
      rw [run_bind_ok hFirst] at hError ⊢
      exact (hNext x w' e hError hEarly).trans hKept

/-- Saving is the only step that fails late, and nothing fails after it. -/
theorem keepsUnlessSaving_save (folder : String) (s : Studio) (x : α) :
    KeepsUnlessSaving view (do saveStudio folder s; return x) := by
  intro w e hError hEarly
  have hSave := run_attempt .notSaved ((FolderStore.mk folder).save s.snapshot) w
  rw [← saveStudio] at hSave
  cases hSaved : (((FolderStore.mk folder).save s.snapshot).run w).1 with
  | error e' =>
    rw [hSaved] at hSave
    rw [run_bind_error hSave] at hError
    cases hError
    cases hEarly
  | ok u =>
    rw [hSaved] at hSave
    rw [run_bind_ok hSave] at hError
    cases hError

end Actions

/-! ### Commands -/

section Commands

variable {γ : Type} {view : Disk → γ}

theorem keeps_openStudio (folder : String) : Keeps view (openStudio folder) :=
  keeps_attempt ((FolderStore.keeps_load _).bind Studio.keeps_ofLoaded)

theorem Source.keeps_load (source : Source) : Keeps view source.load := by
  cases source with
  | file path => exact keeps_attempt (Tree.keeps_load path)
  | builtInDark => exact keeps_return _
  | studio folder => exact (keeps_openStudio folder).bind fun _ => keeps_return _
  | builtInLight => exact keeps_return _

theorem keepsUnlessSaving_setInStudio (folder path value : String) :
    KeepsUnlessSaving view (setInStudio folder path value) := by
  refine (keeps_openStudio folder).bindUnlessSaving fun s => ?_
  refine (keeps_job keeps_now).bindUnlessSaving fun now => ?_
  refine (keeps_lift _).bindUnlessSaving fun _ => ?_
  exact keepsUnlessSaving_save folder _ _

theorem keeps_setInTree (source : Source) (path value : String) {output : Option String}
    (h : ∀ file, output = some file → ∀ text, (Job.write file text).Keeps view) :
    Keeps view (setInTree source path value output) := by
  refine source.keeps_load.bind fun t => (keeps_lift _).bind fun _ => ?_
  cases output with
  | none => exact keeps_return _
  | some file => exact (keeps_attempt (h file rfl _)).bind fun _ => keeps_return _

theorem keeps_generate (component : String) (strategy : Strategy) {folder : Option String}
    (h : ∀ target, folder = some target → ∀ files, generatedFiles component strategy = .ok files →
      (GeneratedFile.exportAll target files).Keeps view) :
    Keeps view (generate component strategy folder) := by
  rw [generate]
  cases hFiles : generatedFiles component strategy with
  | error e => exact keeps_pure _
  | ok files =>
    cases folder with
    | none => exact keeps_return (String.join (files.map listing))
    | some target =>
      have hExport := h target rfl files hFiles
      exact (keeps_attempt hExport).bind fun paths => keeps_return _

theorem keeps_changeBrands (s : Studio) (c : BrandCommand) : Keeps view (changeBrands s c) := by
  cases c with
  | list => exact keeps_return _
  | create name description =>
    exact (keeps_job keeps_freshIds).bind fun _ => (keeps_job keeps_now).bind fun _ =>
      keeps_return _
  | delete key => exact (keeps_lift _).bind fun _ => keeps_return _
  | use key mode => exact (keeps_lift _).bind fun _ => keeps_return _

theorem keepsUnlessSaving_brand (store : Option String) (c : BrandCommand) :
    KeepsUnlessSaving view (brand store c) := by
  cases store with
  | none => exact Keeps.unlessSaving (keeps_pure _)
  | some folder =>
    refine (keeps_openStudio folder).bindUnlessSaving fun s => ?_
    refine (keeps_changeBrands s c).bindUnlessSaving fun change => ?_
    obtain ⟨changed, text⟩ := change
    cases changed with
    | none => exact (keeps_return _).unlessSaving
    | some s => exact keepsUnlessSaving_save folder s _

theorem keeps_brand_list (store : Option String) : Keeps view (brand store .list) := by
  cases store with
  | none => exact keeps_pure _
  | some folder => exact (keeps_openStudio folder).bind fun s => keeps_return _

/-! ### Invocations -/

/-- Whether an invocation at most reads the studio. Setting a token does so where the tree comes
from elsewhere or goes elsewhere. -/
def Invocation.readsOnly (i : Invocation) : Bool :=
  match i.command with
  | .components | .get .. | .flatten .. | .generate .. | .validate | .dark | .brand .list => true
  | .set _ _ output => output.isSome || i.tokens.isSome || i.dark || i.store.isNone
  | .brand _ => false

/-- The view does not see what the invocation writes where it is told to write. -/
structure Invocation.Spares (i : Invocation) (view : Disk → γ) : Prop where
  file : ∀ path value output, i.command = .set path value (some output) →
    ∀ text, (Job.write output text).Keeps view
  folder : ∀ component strategy folder, i.command = .generate component strategy (some folder) →
    ∀ files, generatedFiles component strategy = .ok files →
      (GeneratedFile.exportAll folder files).Keeps view

theorem set_eq_setInTree {i : Invocation} (path value : String) {output : Option String}
    (h : (output.isSome || i.tokens.isSome || i.dark || i.store.isNone) = true) :
    set i.source path value output = setInTree i.source path value output := by
  obtain ⟨tokens, dark, store, verbose, command⟩ := i
  cases output with
  | some file => cases Invocation.source ⟨tokens, dark, store, verbose, command⟩ <;> rfl
  | none =>
    cases tokens with
    | some file => rfl
    | none =>
      cases dark with
      | true => rfl
      | false =>
        cases store with
        | none => rfl
        | some folder => cases h

theorem Invocation.Spares.setInTree {i : Invocation} (h : i.Spares view) {path value : String}
    {output : Option String} (hCommand : i.command = .set path value output) :
    Keeps view (setInTree i.source path value output) :=
  keeps_setInTree _ _ _ fun file hFile => h.file path value file (hFile ▸ hCommand)

theorem Invocation.Spares.generate {i : Invocation} (h : i.Spares view) {component : String}
    {strategy : Strategy} {folder : Option String}
    (hCommand : i.command = .generate component strategy folder) :
    Keeps view (generate component strategy folder) :=
  keeps_generate component strategy fun target hTarget =>
    h.folder component strategy target (hTarget ▸ hCommand)

/-- **An invocation that at most reads keeps the view.** -/
theorem Invocation.keeps_run {i : Invocation} (h : i.Spares view) (hReads : i.readsOnly = true) :
    Keeps view i.run := by
  unfold run
  unfold readsOnly at hReads
  split
  · exact keeps_return _
  · exact i.source.keeps_load.bind fun _ => keeps_lift _
  · rename_i path value output hCommand
    rw [hCommand] at hReads
    rw [set_eq_setInTree path value hReads]
    exact h.setInTree hCommand
  · exact i.source.keeps_load.bind fun _ => keeps_return _
  · rename_i hCommand
    exact i.source.keeps_load.bind fun _ => h.generate hCommand
  · exact i.source.keeps_load.bind fun _ => keeps_lift _
  · exact i.source.keeps_load.bind fun _ => keeps_return _
  · rename_i c hCommand
    rw [hCommand] at hReads
    cases c with
    | list => exact keeps_brand_list i.store
    | _ => cases hReads

/-- **Every invocation keeps the view if it fails before it saves.** -/
theorem Invocation.keepsUnlessSaving_run {i : Invocation} (h : i.Spares view) :
    KeepsUnlessSaving view i.run := by
  cases hReads : i.readsOnly with
  | true => exact (keeps_run h hReads).unlessSaving
  | false =>
    unfold readsOnly at hReads
    unfold run
    split at hReads
    all_goals try cases hReads
    · rename_i path value output hCommand
      rw [hCommand]
      have hTree := (h.setInTree hCommand).unlessSaving
      show KeepsUnlessSaving view (set i.source path value output)
      unfold set
      split
      · exact keepsUnlessSaving_setInStudio _ path value
      · exact hTree
    · rename_i c _ hCommand
      rw [hCommand]
      exact keepsUnlessSaving_brand i.store c

end Commands

/-! ### The snapshot's file -/

section Store

open Disk (placeOf way)

variable {γ : Type} {view : Disk → γ}

theorem keeps_writeAll {folder : String} {files : List GeneratedFile}
    (h : ∀ g ∈ files, ∀ text, (Job.write (Disk.within folder g.fileName) text).Keeps view) :
    (GeneratedFile.writeAll folder files).Keeps view := by
  induction files with
  | nil => exact keeps_pure _
  | cons g rest ih =>
    obtain ⟨hFirst, hRest⟩ := List.forall_mem_cons.mp h
    refine (hFirst g.content).bind fun r => ?_
    cases r with
    | error e => exact keeps_pure _
    | ok => exact (ih hRest).bind fun _ => keeps_pure _

theorem keeps_exportAll {folder : String} {files : List GeneratedFile}
    (hFolders : ∀ d : Disk, view (d.makeFolders folder).2 = view d)
    (hFiles : ∀ g ∈ files, ∀ text, (Job.write (Disk.within folder g.fileName) text).Keeps view) :
    (GeneratedFile.exportAll folder files).Keeps view := by
  refine (Job.keeps_makeFolders hFolders).bind fun r => ?_
  cases r with
  | error e => exact keeps_pure _
  | ok => exact keeps_writeAll hFiles

/-- The path that an invocation is told to write to. -/
def Invocation.output? (i : Invocation) : Option String :=
  match i.command with
  | .set _ _ output => output
  | .generate _ _ folder => folder
  | _ => none

/-- No generated file takes the place of a snapshot, in whatever folder. -/
theorem placeOf_generated_ne {component : String} {strategy : Strategy}
    {files : List GeneratedFile} (h : generatedFiles component strategy = .ok files)
    {g : GeneratedFile} (hg : g ∈ files) (folder : String) (f : FolderStore) :
    f.place ≠ placeOf (Disk.within folder g.fileName) := by
  obtain ⟨c, -, hGenerated⟩ := exists_of_bind_eq_ok h
  rw [mapError_eq_ok_iff] at hGenerated
  obtain ⟨hPlain, hSource⟩ := Generation.isSourceName_of_generate hGenerated g hg
  rw [f.place_eq, Disk.placeOf_within folder hPlain]
  intro hEq
  have hName := (List.append_inj' hEq rfl).2
  rw [← List.singleton_inj.mp hName] at hSource
  revert hSource
  decide

/-- A view of the snapshot's file is spared by invocations that are told to write elsewhere. -/
theorem Invocation.spares_of_congr {i : Invocation} {f : FolderStore}
    (hView : ∀ {d d' : Disk}, d'.at? f.place = d.at? f.place → view d' = view d)
    (hOutput : ∀ path, i.output? = some path → f.place ≠ placeOf path)
    (hFolders : ∀ path, i.output? = some path → ∀ d : Disk, view (d.makeFolders path).2 = view d) :
    i.Spares view := by
  have hWrite : ∀ {path}, f.place ≠ placeOf path → ∀ text, (Job.write path text).Keeps view :=
    fun hNe _ => Job.keeps_write fun _ _ h => hView (Disk.at?_write_of_ne h hNe)
  constructor
  · intro path value output hCommand
    refine hWrite (hOutput output ?_)
    rw [output?, hCommand]
  · intro component strategy folder hCommand files hFiles
    refine keeps_exportAll (hFolders folder ?_) fun g hg => ?_
    · rw [output?, hCommand]
    · exact hWrite (placeOf_generated_ne hFiles hg folder f)

theorem Invocation.spares_disk {i : Invocation} (h : i.output? = none) : i.Spares id := by
  constructor
  · intro path value output hCommand
    rw [output?, hCommand] at h
    cases h
  · intro component strategy folder hCommand
    rw [output?, hCommand] at h
    cases h

theorem Invocation.kept_of_spares {i : Invocation} (hSpares : i.Spares view) {w : Workbench}
    (h : i.readsOnly = true ∨ ∃ e, (i.run.run.run w).1 = .error e ∧ e.early = true) :
    view (i.run.run.run w).2.disk = view w.disk := by
  rcases h with hReads | ⟨e, hError, hEarly⟩
  · exact keeps_run hSpares hReads w
  · exact keepsUnlessSaving_run hSpares w e hError hEarly

/-- **What only reads, or fails before it saves, leaves the store alone**, whatever is in its
folder: the file of the snapshot is what it was, or still missing. If the invocation is told to
write somewhere, this must not be the file itself. Where that path does not even go through the
place of the file, nothing comes to stand there, and where there is no such path, the whole disk is
what it was.

There are no links on these disks, so a path leads to the file only by the file's own place. A path
that led to it by way of a link would be one to the file itself. -/
theorem store_kept (i : Invocation) (f : FolderStore) (w : Workbench)
    (h : i.readsOnly = true ∨ ∃ e, (i.run.run.run w).1 = .error e ∧ e.early = true)
    (hOutput : ∀ path, i.output? = some path → f.place ≠ placeOf path) :
    (i.run.run.run w).2.disk.fileAt? f.place = w.disk.fileAt? f.place ∧
      ((∀ path, i.output? = some path → f.place ∉ way path) →
        (i.run.run.run w).2.disk.at? f.place = w.disk.at? f.place) ∧
      (i.output? = none → (i.run.run.run w).2.disk = w.disk) := by
  refine ⟨?_, fun hWay => ?_, fun hNone => ?_⟩
  · have hSpares : i.Spares (·.fileAt? f.place) :=
      Invocation.spares_of_congr Disk.fileAt?_congr hOutput fun path _ =>
        Disk.fileAt?_makeFolders path f.place
    exact Invocation.kept_of_spares hSpares h
  · have hSpares : i.Spares (·.at? f.place) :=
      Invocation.spares_of_congr id hOutput fun path hPath =>
        Disk.at?_makeFolders_of_not_mem_way (hWay path hPath)
    exact Invocation.kept_of_spares hSpares h
  · exact Invocation.kept_of_spares (Invocation.spares_disk hNone) h

/-- A workbench with a store whose snapshot is cut off. -/
def cutOffBench : Workbench where
  disk := ⟨[(["store"], .folder), ((FolderStore.mk "store").place, .file (some "\x7b"))]⟩
  ids n := toString n
  times _ := Instant.epoch
  usedIds := 0
  usedTimes := 0

/-- A brand cannot be created in a store that cannot be read, and code can be generated next to it;
the store stays as it is. -/
theorem cut_off_store_kept :
    let f := FolderStore.mk "store"
    let create : Invocation := ⟨none, false, some "store", false, .brand (.create "Acme" "")⟩
    let generate : Invocation :=
      ⟨none, true, some "store", false, .generate "button" .nativeReact (some "store/../out")⟩
    (create.run.run.run cutOffBench).2.disk = cutOffBench.disk ∧
      (generate.run.run.run cutOffBench).2.disk.at? f.place = cutOffBench.disk.at? f.place := by
  intro f create generate
  have hError : (create.run.run.run cutOffBench).1 =
      .error (.studio "store" (.store .malformed)) := by
    decide +kernel
  have hCreate := store_kept create f cutOffBench (.inr ⟨_, hError, rfl⟩) nofun
  have hOut : ∀ path, generate.output? = some path → f.place ∉ way path := by
    rintro path ⟨⟩
    decide
  have hGenerate := store_kept generate f cutOffBench (.inl rfl) fun path hPath hEq =>
    hOut path hPath (hEq ▸ Disk.placeOf_mem_way path)
  exact ⟨hCreate.2.2 rfl, hGenerate.2.1 hOut⟩

end Store

end Shell

end DesignSystem
