import DesignSystem.Proofs.Shell.Session
import DesignSystem.Proofs.Tree.Editing
/-!
# What setting a token reports

An edit of a tree that cannot be made leaves the tree as it is. So the command that sets a token
looks at the path afterwards, and reports success only if the text is there. Then it puts the tree
out: it prints it, writes it to a file, or saves the studio that the tree belongs to.

`outcome_set` says once for all sources what comes of a command whose tree is there: it is refused,
it finds no room for the tree, or it puts the tree out. The text that it finds at a path is empty
also where there is no token, and this is the one case in which success is reported for an edit that
has not landed (`set_reports_landing`).
-/

namespace DesignSystem

namespace Tree

/-- There is a token with a text at a path. -/
def Holds (t : Tree) (path value : String) : Prop :=
  ∃ token, t.token? path = some token ∧ token.value = value

/-- **The text at a path** is that of its token, and empty where there is none. -/
theorem valueAt_eq_iff {t : Tree} {path value : String} :
    t.valueAt path = value ↔ t.Holds path value ∨ value = "" ∧ t.token? path = none := by
  rw [valueAt, Holds]
  cases t.token? path with
  | none => simp [eq_comm]
  | some token => simp

theorem valueAt_set_of_not_blocks {t : Tree} {path : String} (h : ¬ t.Blocks path)
    (value : String) : (t.set path value).valueAt path = value := by
  rw [valueAt, token?_set_self h]
  cases t.token? path <;> rfl

end Tree

namespace Shell

open Studio (Anchored Foremost)

variable {source : Source} {path value : String} {output : Option String}

/-! ### Where the tree goes -/

/-- The tree that a command has changed can be put out. Printing is always possible. -/
def HasRoom (source : Source) (output : Option String) (d : Disk) : Prop :=
  match output, source with
  | some file, _ => d.Free file
  | none, .studio folder => (FolderStore.mk folder).Usable d
  | none, _ => True

/-- The tree is what a command has put out: what the file holds that it was told to write, the
active tree of the studio that it has saved, or what it prints. -/
def PutsOut (source : Source) (output : Option String) (t : Tree) (text : String) (d : Disk) :
    Prop :=
  match output, source with
  | some file, _ => d.read file = .ok (print t)
  | none, .studio folder => ∃ snapshot s,
    d.read (FolderStore.mk folder).path = .ok snapshot.toJson.pretty ∧
      Studio.ofSnapshot snapshot = .ok s ∧ s.activeTokens = t
  | none, _ => text = print t

/-- What comes of setting a token once there is a tree: `t` is the tree after the edit and `d` the
disk before it. -/
inductive Outcome (source : Source) (path value : String) (output : Option String) (t : Tree)
    (d : Disk) : Except Failure String × Workbench → Prop
  | refused {w : Workbench} (hText : t.valueAt path ≠ value) (hDisk : w.disk = d) :
      Outcome source path value output t d (.error (.notSet path), w)
  | noRoom {e : Failure} {w : Workbench} (hText : t.valueAt path = value)
      (hRoom : ¬ HasRoom source output d) : Outcome source path value output t d (.error e, w)
  | done {text : String} {w : Workbench} (hText : t.valueAt path = value)
      (hRoom : HasRoom source output d) (hOut : PutsOut source output t text w.disk) :
      Outcome source path value output t d (.ok text, w)

namespace Outcome

variable {t : Tree} {d : Disk} {r : Except Failure String × Workbench}

theorem ok_iff (h : Outcome source path value output t d r) :
    (∃ text, r.1 = .ok text) ↔ HasRoom source output d ∧ t.valueAt path = value := by
  cases h with
  | refused hText _ => exact iff_of_false nofun fun h => hText h.2
  | noRoom _ hRoom => exact iff_of_false nofun fun h => hRoom h.1
  | done hText hRoom _ => exact iff_of_true ⟨_, rfl⟩ ⟨hRoom, hText⟩

theorem putsOut (h : Outcome source path value output t d r) {text : String}
    (hOk : r.1 = .ok text) : PutsOut source output t text r.2.disk := by
  cases h with
  | refused _ _ => cases hOk
  | noRoom _ _ => cases hOk
  | done _ _ hOut =>
    cases hOk
    exact hOut

theorem refused_of_ne (h : Outcome source path value output t d r)
    (hText : t.valueAt path ≠ value) : r.1 = .error (.notSet path) ∧ r.2.disk = d := by
  cases h with
  | refused _ hDisk => exact ⟨rfl, hDisk⟩
  | noRoom hThere _ => exact absurd hThere hText
  | done hThere _ _ => exact absurd hThere hText

end Outcome

/-! ### The steps -/

/-- **Something is done only with a tree that has the text.** -/
theorem outcome_checkSet {t : Tree} {d : Disk} {next : Unit → Action String} {w : Workbench}
    (hDisk : w.disk = d)
    (hNext : t.valueAt path = value → Outcome source path value output t d ((next ()).run.run w)) :
    Outcome source path value output t d
      ((liftM (checkSet t path value) >>= next : Action String).run.run w) := by
  by_cases hText : t.valueAt path = value
  · have hCheck : (liftM (checkSet t path value) : Action Unit).run.run w = (.ok (), w) := by
      rw [checkSet, if_pos hText]
      rfl
    rw [run_bind_ok hCheck]
    exact hNext hText
  · have hCheck : (liftM (checkSet t path value) : Action Unit).run.run w =
        (.error (.notSet path), w) := by
      rw [checkSet, if_neg hText]
      rfl
    rw [run_bind_error hCheck]
    exact .refused hText hDisk

theorem outcome_write {t : Tree} {w : Workbench} (hText : t.valueAt path = value)
    (file text : String) : Outcome source path value (some file) t w.disk
      ((do attempt (.notWritten file) (Job.write file (print t)); return text :
        Action String).run.run w) := by
  have hRun := run_attempt (.notWritten file) (Job.write file (print t)) w
  have hJob : (Job.write file (print t)).run w = w.change (w.disk.write file (print t)) := rfl
  rw [hJob] at hRun
  cases hWrite : w.disk.write file (print t) with
  | error e =>
    rw [hWrite] at hRun
    rw [run_bind_error hRun]
    refine .noRoom hText fun ⟨p, hLocate, hFree⟩ => ?_
    cases hWrite.symm.trans (Disk.write_of_free hLocate hFree _)
  | ok d =>
    rw [hWrite] at hRun
    rw [run_bind_ok hRun]
    exact .done hText (Disk.free_of_write hWrite) (Disk.read_of_write hWrite)

theorem outcome_save {folder : String} {s : Studio} {w : Workbench} (hAnchored : Anchored s)
    (hForemost : Foremost s) (hText : s.activeTokens.valueAt path = value) (text : String) :
    Outcome (.studio folder) path value none s.activeTokens w.disk
      ((do saveStudio folder s; return text : Action String).run.run w) := by
  by_cases hUsable : (FolderStore.mk folder).Usable w.disk
  · obtain ⟨d, hSave, -, hRead⟩ := exists_saved hUsable s
    rw [run_bind_ok hSave]
    exact .done hText hUsable ⟨s.snapshot, _, hRead, hForemost.ofSnapshot_snapshot hAnchored, rfl⟩
  · have hRun := run_attempt .notSaved ((FolderStore.mk folder).save s.snapshot) w
    rw [← saveStudio] at hRun
    cases hSaved : (((FolderStore.mk folder).save s.snapshot).run w).1 with
    | error e =>
      rw [hSaved] at hRun
      rw [run_bind_error hRun]
      exact .noRoom hText hUsable
    | ok => exact absurd (FolderStore.usable_of_save hSaved) hUsable

/-! ### One command -/

theorem outcome_setInTree {t : Tree} {w w' : Workbench}
    (hLoad : source.load.run.run w = (.ok t, w'))
    (hOutput : output.isSome ∨ ∀ folder, source ≠ .studio folder) :
    Outcome source path value output (t.set path value) w'.disk
      ((setInTree source path value output).run.run w) := by
  rw [setInTree, run_bind_ok hLoad]
  refine outcome_checkSet rfl fun hText => ?_
  cases output with
  | some file => exact outcome_write hText file _
  | none =>
    cases source with
    | studio folder => exact absurd rfl (hOutput.resolve_left nofun folder)
    | _ => exact .done hText trivial rfl

theorem start_of_openStudio {folder : String} {w w' : Workbench} {s : Studio}
    (h : (openStudio folder).run.run w = (.ok s, w')) : Studio.Start s := by
  rw [openStudio, run_attempt, Job.run_bind] at h
  generalize (FolderStore.mk folder).load.run w = loaded at h
  cases hOpened : ((Studio.ofLoaded loaded.1).run loaded.2).1 with
  | error e =>
    rw [hOpened] at h
    cases h
  | ok s' =>
    rw [hOpened] at h
    cases h
    exact Studio.start_of_ofLoaded hOpened

theorem outcome_setInStudio {folder : String} {s : Studio} {w w' : Workbench}
    (hOpen : (openStudio folder).run.run w = (.ok s, w')) :
    Outcome (.studio folder) path value none (s.activeTokens.set path value) w'.disk
      ((setInStudio folder path value).run.run w) := by
  have hStart := start_of_openStudio hOpen
  have hAnchored := Studio.anchored_of_start hStart
  have hForemost := Studio.foremost_of_start hStart
  -- Asking for the time leaves the disk as it is.
  obtain ⟨now, w'', hNow, hDisk⟩ : ∃ now w'', (liftM Job.now : Action Instant).run.run w' =
      (.ok now, w'') ∧ w''.disk = w'.disk := ⟨_, _, rfl, rfl⟩
  rw [setInStudio, run_bind_ok hOpen, run_bind_ok hNow]
  rw [← Studio.activeTokens_update? hAnchored now, ← hDisk]
  refine outcome_checkSet rfl fun hText => ?_
  exact outcome_save (Studio.anchored_perform hAnchored (.update now path value))
    (hForemost.update? now path value) hText _

/-- The tree of a studio is there if the studio is opened. -/
theorem run_load_studio (folder : String) (w : Workbench) :
    (∃ e w', (openStudio folder).run.run w = (.error e, w') ∧
      (Source.studio folder).load.run.run w = (.error e, w')) ∨
    ∃ s w', (openStudio folder).run.run w = (.ok s, w') ∧
      (Source.studio folder).load.run.run w = (.ok s.activeTokens, w') := by
  rw [Source.load]
  cases hOpen : (openStudio folder).run.run w with
  | mk r w' =>
    cases r with
    | error e => exact .inl ⟨e, w', rfl, run_bind_error hOpen _⟩
    | ok s => exact .inr ⟨s, w', rfl, run_bind_ok hOpen _⟩

/-- **What comes of setting a token** once there is a tree. -/
theorem outcome_set {t : Tree} {w w' : Workbench} (hLoad : source.load.run.run w = (.ok t, w')) :
    Outcome source path value output (t.set path value) w'.disk
      ((set source path value output).run.run w) := by
  cases source with
  | studio folder =>
    cases output with
    | none =>
      rcases run_load_studio folder w with ⟨e, w₁, -, hFails⟩ | ⟨s, w₁, hOpen, hLoads⟩
      · cases hFails.symm.trans hLoad
      · cases hLoads.symm.trans hLoad
        exact outcome_setInStudio hOpen
    | some file => exact outcome_setInTree hLoad (.inl rfl)
  | _ => exact outcome_setInTree hLoad (.inr nofun)

/-- **Without a tree** the command fails as loading does. -/
theorem set_of_load_error {e : Failure} {w w' : Workbench}
    (hLoad : source.load.run.run w = (.error e, w')) :
    (set source path value output).run.run w = (.error e, w') := by
  have hTree : (setInTree source path value output).run.run w = (.error e, w') := by
    rw [setInTree]
    exact run_bind_error hLoad _
  cases source with
  | studio folder =>
    cases output with
    | none =>
      rcases run_load_studio folder w with ⟨e, w₁, hOpen, hFails⟩ | ⟨s, w₁, -, hLoads⟩
      · cases hFails.symm.trans hLoad
        exact run_bind_error hOpen _
      · cases hLoads.symm.trans hLoad
    | some file => exact hTree
  | _ => exact hTree

/-! ### The statement -/

/-- **When setting a token reports success.** It does so exactly if there is a tree, there is room
to put it out, and after the edit a token at the path has the text, or else the text is empty and no
token is there. What is put out is the tree after the edit. A command that is refused has said why,
for something does block the path, and has written nothing.

So of a text that is not empty success means that the edit has landed. An empty text is found also
where there is no token, and its success means nothing. -/
theorem set_reports_landing (source : Source) (path value : String) (output : Option String)
    (w : Workbench) :
    let r := (set source path value output).run.run w
    let loaded := (source.load.run.run w).1
    ((∃ text, r.1 = .ok text) ↔
      ∃ t, loaded = .ok t ∧ HasRoom source output w.disk ∧
        ((t.set path value).Holds path value ∨
          value = "" ∧ (t.set path value).token? path = none)) ∧
    (∀ text, r.1 = .ok text →
      ∃ t, loaded = .ok t ∧ PutsOut source output (t.set path value) text r.2.disk) ∧
    (∀ t, loaded = .ok t → ¬ (t.set path value).Holds path value →
      (value = "" → (t.set path value).token? path ≠ none) →
      r.1 = .error (.notSet path) ∧ t.Blocks path ∧ r.2.disk = w.disk) ∧
    ∀ e, loaded = .error e → r.1 = .error e := by
  intro r loaded
  have hKeeps : Keeps id source.load := source.keeps_load
  have hDisk : (source.load.run.run w).2.disk = w.disk := hKeeps w
  have hOutcome : ∀ t, loaded = .ok t →
      Outcome source path value output (t.set path value) w.disk r := by
    intro t hLoad
    rw [← hDisk]
    exact outcome_set (Prod.ext hLoad rfl)
  have hError : ∀ e, loaded = .error e → r.1 = .error e := fun e hLoad =>
    congrArg Prod.fst (set_of_load_error (Prod.ext hLoad rfl))
  have hLoaded : ∀ text, r.1 = .ok text → ∃ t, loaded = .ok t := by
    intro text hOk
    cases hLoad : loaded with
    | error e => cases hOk.symm.trans (hError e hLoad)
    | ok t => exact ⟨t, rfl⟩
  refine ⟨⟨?_, ?_⟩, ?_, ?_, hError⟩
  · rintro ⟨text, hOk⟩
    obtain ⟨t, hLoad⟩ := hLoaded text hOk
    obtain ⟨hRoom, hText⟩ := (hOutcome t hLoad).ok_iff.mp ⟨text, hOk⟩
    exact ⟨t, hLoad, hRoom, Tree.valueAt_eq_iff.mp hText⟩
  · rintro ⟨t, hLoad, hRoom, hText⟩
    exact (hOutcome t hLoad).ok_iff.mpr ⟨hRoom, Tree.valueAt_eq_iff.mpr hText⟩
  · intro text hOk
    obtain ⟨t, hLoad⟩ := hLoaded text hOk
    exact ⟨t, hLoad, (hOutcome t hLoad).putsOut hOk⟩
  · intro t hLoad hNot hToken
    have hText : (t.set path value).valueAt path ≠ value := fun hText =>
      (Tree.valueAt_eq_iff.mp hText).elim hNot fun hNone => hToken hNone.1 hNone.2
    obtain ⟨hRefused, hKept⟩ := (hOutcome t hLoad).refused_of_ne hText
    refine ⟨hRefused, ?_, hKept⟩
    by_contra hFree
    exact hText (Tree.valueAt_set_of_not_blocks hFree value)

/-- **Success is reported for an edit that has not landed.** The path runs through a token of the
light tree, and the text is empty. -/
theorem refused_edit_reports_success :
    ¬ ∀ (source : Source) (path value : String) (output : Option String) (w : Workbench) (t : Tree),
      (source.load.run.run w).1 = .ok t → HasRoom source output w.disk →
      ((∃ text, ((set source path value output).run.run w).1 = .ok text) ↔
        (t.set path value).Holds path value) := by
  intro hAll
  have hNone : (Tree.light.set "color.primary.500.extra" "").token? "color.primary.500.extra" =
      none := by
    decide +kernel
  have hOutcome : Outcome .builtInLight "color.primary.500.extra" "" none
      (Tree.light.set "color.primary.500.extra" "") Studio.emptyBench.disk
      ((set .builtInLight "color.primary.500.extra" "" none).run.run Studio.emptyBench) :=
    outcome_set rfl
  have hOk := hOutcome.ok_iff.mpr ⟨trivial, Tree.valueAt_eq_iff.mpr (.inr ⟨rfl, hNone⟩)⟩
  obtain ⟨token, hToken, -⟩ := (hAll .builtInLight _ _ none Studio.emptyBench _ rfl trivial).mp hOk
  cases hNone.symm.trans hToken

end Shell

end DesignSystem
