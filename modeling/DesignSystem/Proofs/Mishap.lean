import DesignSystem.Proofs.Disk
import DesignSystem.Job
/-!
# Mishaps

`Job.run` answers every request in full. On a real workbench a request may also fail halfway, or
everything may come to a stop there, and then a part of its work has been done (`Request.spoil`):
of several folders the first may have been made, and a file that was being written may hold
anything. Moving and removing a file happens at once or not at all.

`Job.runUnder` runs a job with such mishaps at any of its requests. Without mishaps it is `Job.run`
(`Job.runUnder_sound`). Whatever happens, everything on the disk still stands in a folder
(`Job.rooted_runUnder`).
-/

namespace DesignSystem

namespace Disk

/-! ### Halves of operations -/

/-- The disk with the folders of a path, except for the last ones that would have been made. -/
def beginFolders (d : Disk) (path : String) (skipped : Nat) : Disk :=
  if path = "" then d
  else (d.makeFoldersFrom
    ((path :: (pathsTo (Text.cut '/' path).reverse).tail).drop skipped)).2

/-- The disk with a file at a path that was not written to its end. -/
def tear (d : Disk) (path : String) (left : Option String) : Disk :=
  match d.locate path with
  | .error _ => d
  | .ok p => if d.at? p = some .folder then d else d.put p (.file left)

theorem beginFolders_zero (d : Disk) (path : String) :
    d.beginFolders path 0 = (d.makeFolders path).2 := by
  unfold beginFolders makeFolders
  split <;> rfl

theorem tear_eq (d : Disk) (path : String) (left : Option String) :
    d.tear path left = d ∨ ∃ p, d.locate path = .ok p ∧ d.at? p ≠ some .folder ∧
      d.tear path left = d.put p (.file left) := by
  unfold tear
  cases hPath : d.locate path with
  | error e => exact Or.inl rfl
  | ok p =>
    by_cases hFolder : d.at? p = some .folder
    · exact Or.inl (if_pos hFolder)
    · exact Or.inr ⟨p, rfl, hFolder, if_neg hFolder⟩

end Disk

/-! ### Requests and jobs -/

/-- How far a request came that was broken off. -/
inductive Damage where
  | none
  | folders (skipped : Nat)
  | torn (left : Option String)

/-- What becomes of a request: it is answered in full, or it fails with some damage done and with any
error, or nothing is done any more after that damage. -/
inductive Fate where
  | sound
  | fails (damage : Damage) (error : Disk.Error)
  | stops (damage : Damage)

namespace Request

/-- The disk after a request that was broken off. -/
def spoil (d : Disk) : Request → Damage → Disk
  | .makeFolders path, .folders skipped => d.beginFolders path skipped
  | .write path _, .torn left => d.tear path left
  | _, _ => d

/-- The answer to a request that fails with an error, if it can fail. -/
def failure? (e : Disk.Error) : (r : Request) → Option r.Reply
  | .read _ | .makeFolders _ | .write _ _ | .rename _ _ | .remove _ => some (.error e)
  | .freshId | .now => none

end Request

namespace Job

variable {α : Type}

/-- Runs a job whose requests have fates, the first that of number 0. Nothing comes out where the
job is stopped, which may also be after its last request. -/
def runUnder : Job α → (Nat → Fate) → Workbench → Option α × Workbench
  | done a, fates, w => match fates 0 with
    | .stops _ => (none, w)
    | .sound | .fails _ _ => (some a, w)
  | ask r next, fates, w => match fates 0 with
    | .stops damage => (none, { w with disk := r.spoil w.disk damage })
    | .fails damage e => match r.failure? e with
      | some reply =>
        (next reply).runUnder (fun i => fates (i + 1)) { w with disk := r.spoil w.disk damage }
      | none => (next (w.answer r).1).runUnder (fun i => fates (i + 1)) (w.answer r).2
    | .sound => (next (w.answer r).1).runUnder (fun i => fates (i + 1)) (w.answer r).2

/-- **Without mishaps a job just runs.** -/
theorem runUnder_sound (j : Job α) (w : Workbench) :
    j.runUnder (fun _ => .sound) w = (some (j.run w).1, (j.run w).2) := by
  induction j generalizing w with
  | done a => rfl
  | ask r next ih => exact ih (w.answer r).1 (w.answer r).2

theorem runUnder_done (a : α) (fates : Nat → Fate) (w : Workbench) :
    (done a).runUnder fates w = (some a, w) ∨ (done a).runUnder fates w = (none, w) := by
  unfold runUnder
  cases fates 0 with
  | sound | fails _ _ => exact Or.inl rfl
  | stops _ => exact Or.inr rfl

/-- A request is answered, or it is broken off and the job stops or goes on with the failure. -/
theorem runUnder_ask (r : Request) (next : r.Reply → Job α) (fates : Nat → Fate) (w : Workbench) :
    (ask r next).runUnder fates w =
        (next (w.answer r).1).runUnder (fun i => fates (i + 1)) (w.answer r).2 ∨
      ∃ damage, (ask r next).runUnder fates w = (none, { w with disk := r.spoil w.disk damage }) ∨
        ∃ e reply, r.failure? e = some reply ∧ (ask r next).runUnder fates w =
          (next reply).runUnder (fun i => fates (i + 1))
            { w with disk := r.spoil w.disk damage } := by
  rw [runUnder]
  cases fates 0 with
  | sound => exact Or.inl rfl
  | stops damage => exact Or.inr ⟨damage, Or.inl rfl⟩
  | fails damage e =>
    cases hReply : r.failure? e with
    | none =>
      refine Or.inl ?_
      simp only [hReply]
    | some reply =>
      refine Or.inr ⟨damage, Or.inr ⟨e, reply, hReply, ?_⟩⟩
      simp only [hReply]

/-- **What every request keeps, broken off or not, a job keeps.** -/
theorem runUnder_induction {P : Disk → Prop}
    (hAnswer : ∀ (r : Request) (w : Workbench), P w.disk → P (w.answer r).2.disk)
    (hSpoil : ∀ (r : Request) (d : Disk) damage, P d → P (r.spoil d damage))
    (j : Job α) (fates : Nat → Fate) (w : Workbench) (h : P w.disk) :
    P (j.runUnder fates w).2.disk := by
  induction j generalizing fates w with
  | done a =>
    rcases runUnder_done a fates w with hRun | hRun
    all_goals
      rw [hRun]
      exact h
  | ask r next ih =>
    rcases runUnder_ask r next fates w with hRun | ⟨damage, hRun | ⟨e, reply, -, hRun⟩⟩
    · rw [hRun]
      exact ih _ _ _ (hAnswer r w h)
    · rw [hRun]
      exact hSpoil r w.disk damage h
    · rw [hRun]
      exact ih _ _ _ (hSpoil r w.disk damage h)

end Job

/-! ### Everything stands in a folder -/

namespace Disk

/-- Whatever is on the disk stands in a folder. -/
def Rooted (d : Disk) : Prop :=
  ∀ p name e, d.at? (p ++ [name]) = some e → d.at? p = some .folder

/-- The place lies right in a folder, if it is not the root. -/
def Placed (d : Disk) (p : Place) : Prop :=
  ∀ q name, p = q ++ [name] → d.at? q = some .folder

variable {d : Disk} {p q : Place}

/-- Whether a disk is rooted can be told from what is listed. -/
theorem rooted_of_entries (h : ∀ e ∈ d.entries, d.at? e.1.dropLast = some .folder) :
    d.Rooted := by
  intro p name e hAt
  rw [at?, if_neg (List.append_ne_nil_of_right_ne_nil _ (List.cons_ne_nil _ _))] at hAt
  obtain ⟨before, after, hSplit, -⟩ := List.lookup_eq_some_iff.mp hAt
  have hListed := h (p ++ [name], e) (by
    rw [hSplit]
    exact List.mem_append_right before (List.mem_cons_self ..))
  rwa [List.dropLast_concat] at hListed

theorem rooted_empty : Rooted empty :=
  rooted_of_entries nofun

theorem Rooted.placed (h : d.Rooted) (hAt : d.at? p = some .folder) : d.Placed p := by
  rintro q name rfl
  exact h q name _ hAt

theorem Rooted.placed_enter (h : d.Rooted) (hPlaced : d.Placed p) {name : String}
    (hEnter : d.enter p name = .ok q) : d.Placed q := by
  have hFolder := folder_of_enter hEnter
  obtain rfl := step_of_enter hEnter
  unfold step
  split
  · exact hPlaced
  · split
    · rcases List.eq_nil_or_concat p with rfl | ⟨front, last, rfl⟩
      · exact hPlaced
      · rw [List.concat_eq_append, List.dropLast_concat]
        exact h.placed (hPlaced front last (List.concat_eq_append ..))
    · intro q' name' hEq
      obtain ⟨rfl, -⟩ := List.append_inj' hEq rfl
      exact hFolder

theorem Rooted.placed_walk (h : d.Rooted) {names : List String} (hPlaced : d.Placed p)
    (hWalk : names.foldlM d.enter p = .ok q) : d.Placed q := by
  induction names generalizing p with
  | nil =>
    cases hWalk
    exact hPlaced
  | cons name names ih =>
    rw [List.foldlM_cons] at hWalk
    obtain ⟨r, hEnter, hRest⟩ := exists_of_bind_eq_ok hWalk
    exact ih (h.placed_enter hPlaced hEnter) hRest

theorem placed_root (d : Disk) : d.Placed [] := by
  intro q name hEq
  cases q <;> cases hEq

theorem Rooted.placed_locate (h : d.Rooted) {path : String} (hPath : d.locate path = .ok p) :
    d.Placed p := by
  obtain ⟨names, -, hWalk⟩ := exists_of_bind_eq_ok hPath
  exact h.placed_walk (placed_root d) hWalk

theorem Rooted.put (h : d.Rooted) (hPlaced : d.Placed p) (hAt : d.at? p ≠ some .folder)
    (e : Entry) : (d.put p e).Rooted := by
  have hRoot := ne_root_of_not_folder hAt
  intro q name e' hBelow
  have hFolder : d.at? q = some .folder := by
    rw [at?_put d p _ e hRoot] at hBelow
    split at hBelow
    · rename_i hHere
      exact hPlaced q name hHere.symm
    · exact h q name e' hBelow
  rw [at?_put d p q e hRoot, if_neg]
  · exact hFolder
  · rintro rfl
    exact hAt hFolder

theorem Rooted.drop (h : d.Rooted) (hAt : d.at? p ≠ some .folder) : (d.drop p).Rooted := by
  have hRoot := ne_root_of_not_folder hAt
  intro q name e hBelow
  rw [at?_drop d p _ hRoot] at hBelow
  split at hBelow
  · cases hBelow
  · have hFolder := h q name e hBelow
    rw [at?_drop d p q hRoot, if_neg]
    · exact hFolder
    · rintro rfl
      exact hAt hFolder

theorem Rooted.write (h : d.Rooted) {d' : Disk} {path text : String}
    (hWrite : d.write path text = .ok d') : d'.Rooted := by
  obtain ⟨hFree, rfl⟩ := write_eq_ok hWrite
  exact h.put (h.placed_locate (locate_of_write hWrite)) hFree _

theorem Rooted.tear (h : d.Rooted) (path : String) (left : Option String) :
    (d.tear path left).Rooted := by
  rcases tear_eq d path left with hTear | ⟨p, hPath, hFree, hTear⟩
  · rw [hTear]
    exact h
  · rw [hTear]
    exact h.put (h.placed_locate hPath) hFree _

/-- Moving puts a file at another place, where no folder is. -/
theorem rename_eq_ok {d' : Disk} {source target : String}
    (h : d.rename source target = .ok d') :
    ∃ p q e, d.locate source = .ok p ∧ d.locate target = .ok q ∧ d.at? p = some e ∧
      d.at? p ≠ some .folder ∧ d.at? q ≠ some .folder ∧ d' = (d.drop p).put q e := by
  obtain ⟨p, hSource, h⟩ := exists_of_bind_eq_ok h
  obtain ⟨q, hTarget, h⟩ := exists_of_bind_eq_ok h
  split at h
  · cases h
  · cases h
  · cases h
  · rename_i hFile hAt hFree
    cases h
    refine ⟨p, q, _, hSource, hTarget, hAt, ?_, hFree, rfl⟩
    intro hFolder
    exact hFile (Option.some.inj (hAt.symm.trans hFolder))

theorem Rooted.rename (h : d.Rooted) {d' : Disk} {source target : String}
    (hRename : d.rename source target = .ok d') : d'.Rooted := by
  obtain ⟨p, q, e, -, hTarget, -, hFile, hFree, rfl⟩ := rename_eq_ok hRename
  have hRoot := ne_root_of_not_folder hFile
  refine (h.drop hFile).put ?_ ?_ e
  · intro r name hr
    have hFolder := h.placed_locate hTarget r name hr
    rw [at?_drop d p r hRoot, if_neg]
    · exact hFolder
    · rintro rfl
      exact hFile hFolder
  · rw [at?_drop d p q hRoot]
    split
    · nofun
    · exact hFree

theorem Rooted.remove (h : d.Rooted) {d' : Disk} {path : String}
    (hRemove : d.remove path = .ok d') : d'.Rooted := by
  obtain ⟨p, -, hRemove⟩ := exists_of_bind_eq_ok hRemove
  split at hRemove
  · cases hRemove
  · cases hRemove
  · rename_i hAt
    cases hRemove
    exact h.drop (by rw [hAt]; nofun)

theorem Rooted.makeFolder (h : d.Rooted) {d' : Disk} {path : String}
    (hMake : d.makeFolder path = .ok d') : d'.Rooted := by
  obtain ⟨⟨names, hWalk⟩, hNone, rfl⟩ := exists_walk_of_makeFolder hMake
  exact h.put (h.placed_walk (placed_root d) hWalk) (by rw [hNone]; nofun) _

theorem Rooted.beginFolders (h : d.Rooted) (path : String) (skipped : Nat) :
    (d.beginFolders path skipped).Rooted := by
  rw [Disk.beginFolders]
  split
  · exact h
  · exact makeFoldersFrom_induction (fun _ _ _ _ hMake hRooted => hRooted.makeFolder hMake) h

end Disk

namespace Job

variable {α : Type}

theorem rooted_answer (r : Request) (w : Workbench) (h : w.disk.Rooted) :
    (w.answer r).2.disk.Rooted := by
  have hChange : ∀ r : Except Disk.Error Disk, (∀ d, r = .ok d → d.Rooted) →
      (w.change r).2.disk.Rooted := by
    intro r hr
    cases r with
    | error e => exact h
    | ok d => exact hr d rfl
  cases r with
  | read _ | freshId | now => exact h
  | makeFolders path =>
    show (w.disk.makeFolders path).2.Rooted
    rw [← Disk.beginFolders_zero]
    exact h.beginFolders path 0
  | write path text => exact hChange _ fun _ => h.write
  | rename source target => exact hChange _ fun _ => h.rename
  | remove path => exact hChange _ fun _ => h.remove

theorem rooted_spoil (r : Request) (d : Disk) (damage : Damage) (h : d.Rooted) :
    (r.spoil d damage).Rooted := by
  unfold Request.spoil
  split
  · exact h.beginFolders _ _
  · exact h.tear _ _
  · exact h

/-- **Everything stands in a folder**, whatever has happened to a job. -/
theorem rooted_runUnder (j : Job α) (fates : Nat → Fate) (w : Workbench) (h : w.disk.Rooted) :
    (j.runUnder fates w).2.disk.Rooted :=
  runUnder_induction rooted_answer rooted_spoil j fates w h

end Job

end DesignSystem
