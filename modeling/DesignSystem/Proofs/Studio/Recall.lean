import DesignSystem.Proofs.Studio.Active
import Mathlib.Data.List.Induction
/-!
# What undoing brings back

A studio keeps the tree of the active theme twice, in the brand and as the present of the history.
`Recalls` says that the two agree and that the history remembers nothing but trees of this theme.

`Held start ops tree` says when the active theme has had `tree`: at some earlier point of the run,
in the theme that was active then and has stayed active ever since. Themes are followed by position
(`KeepsActive`), so a theme that moves up because something before it is deleted stays the same one,
while a selection begins anew even if it selects the theme that is active already.

The proof rests on `change_perform`, which sorts what an operation does to the history into four
kinds: it is begun anew, left alone, pushed to, or moved in.
-/

namespace DesignSystem.Studio

/-! ### Staying active -/

/-- Whether the operation selects a theme by itself. -/
def Operation.isSelection : Operation → Bool
  | .selectBrand _ | .selectTheme _ | .switchMode _ => true
  | _ => false

/-- The active theme stays active: it is the active one afterwards too, and no selection is carried
out. -/
def KeepsActive (s : Studio) (op : Operation) : Prop :=
  s.follow op s.active = some (s.perform op).active ∧
    ¬(op.isSelection = true ∧ (s.perform? op).isSome = true)

/-- The active theme stays active through all of the operations. -/
def KeepsThrough (s : Studio) : List Operation → Prop
  | [] => True
  | op :: ops => s.KeepsActive op ∧ (s.perform op).KeepsThrough ops

theorem keepsThrough_append_singleton {s : Studio} {ops : List Operation} {op : Operation} :
    s.KeepsThrough (ops ++ [op]) ↔ s.KeepsThrough ops ∧ (s.run ops).KeepsActive op := by
  induction ops generalizing s with
  | nil => simp [KeepsThrough, run_nil]
  | cons first ops ih => simp only [List.cons_append, KeepsThrough, ih, run_cons, and_assoc]

/-- The theme that is active after the operations had the tree at an earlier point, and it has been
active from there on. -/
def Held (start : Studio) (ops : List Operation) (tree : Tree) : Prop :=
  ∃ before rest, ops = before ++ rest ∧ rest ≠ [] ∧ (start.run before).activeTokens = tree ∧
    (start.run before).KeepsThrough rest

theorem held_now {start : Studio} {ops : List Operation} {op : Operation}
    (h : (start.run ops).KeepsActive op) :
    Held start (ops ++ [op]) (start.run ops).activeTokens :=
  ⟨ops, [op], rfl, List.cons_ne_nil _ _, rfl, h, trivial⟩

theorem Held.step {start : Studio} {ops : List Operation} {op : Operation} {tree : Tree}
    (hHeld : Held start ops tree) (h : (start.run ops).KeepsActive op) :
    Held start (ops ++ [op]) tree := by
  obtain ⟨before, rest, rfl, hNe, hTree, hKeeps⟩ := hHeld
  refine ⟨before, rest ++ [op], List.append_assoc .., by simp, hTree, ?_⟩
  rw [run_append] at h
  exact keepsThrough_append_singleton.mpr ⟨hKeeps, h⟩

/-! ### The four kinds of change -/

/-- What an operation does to the history and to the active tree. -/
inductive Change (s : Studio) (op : Operation) (s' : Studio) : Prop
  | restarted (hHistory : s'.history = s.history.reset s'.activeTokens)
  | kept (hKeeps : s.KeepsActive op) (hHistory : s'.history = s.history)
      (hTokens : s'.activeTokens = s.activeTokens)
  | pushed (hKeeps : s.KeepsActive op) (hHistory : s'.history = s.history.push s'.activeTokens)
  | moved (hKeeps : s.KeepsActive op)
      (hHistory : s.history.undo? = some s'.history ∨ s.history.redo? = some s'.history)
      (hTokens : s'.activeTokens = s'.history.present)

theorem activeTokens_eq_of_theme? {s s' : Studio} (h : s'.theme? s'.active = s.theme? s.active) :
    s'.activeTokens = s.activeTokens := by
  rw [activeTokens, activeTokens, activeTheme?_eq, activeTheme?_eq, h]

theorem activeTokens_writeActive {s : Studio} (h : Anchored s) (now : Instant) (tokens : Tree) :
    (s.writeActive now tokens).activeTokens = tokens := by
  obtain ⟨t, ht⟩ := h.activeTheme?_eq_some
  rw [activeTokens, activeTheme?_eq, active_writeActive, theme?_writeActive, ← activeTheme?_eq, ht,
    Option.map_some, if_pos rfl]
  rfl

/-- An operation that is carried out, is no selection and moves no theme. -/
theorem keepsActive_of_moved {s s' : Studio} {op : Operation} (h : s.perform? op = some s')
    (hSelection : op.isSelection = false) (hMoved : s.moved s.active op = some s'.active) :
    s.KeepsActive op := by
  refine ⟨?_, fun hSel => ?_⟩
  · rw [follow_of_some h, perform_of_some h]
    exact hMoved
  · rw [hSelection] at hSel
    cases hSel.1

theorem change_of_refused {s : Studio} {op : Operation} (h : s.perform? op = none) :
    Change s op s := by
  refine .kept ⟨?_, fun hSel => ?_⟩ rfl rfl
  · rw [follow_of_none h, perform_of_none h]
  · rw [h] at hSel
    cases hSel.2

theorem change_deleteBrand {s s' : Studio} {id : String}
    (h : s.perform? (.deleteBrand id) = some s') : Change s (.deleteBrand id) s' := by
  obtain ⟨i, hi, -, hs⟩ := perform?_deleteBrand h
  rcases hs with ⟨-, rfl⟩ | ⟨hOther, rfl⟩
  · exact .restarted rfl
  · have hMoved : s.moved s.active (.deleteBrand id) =
        some (closeGap i s.brandIndex, s.themeIndex) := by
      simp only [Studio.moved, hi, Option.bind_some, active, shift_of_ne hOther, Option.map_some]
    refine .kept (keepsActive_of_moved h rfl hMoved) rfl ?_
    exact activeTokens_eq_of_theme? (theme?_withoutBrand s (p := s.active) (shift_of_ne hOther))

theorem change_deleteTheme {s s' : Studio} {now : Instant} {id : String}
    (h : s.perform? (.deleteTheme now id) = some s') : Change s (.deleteTheme now id) s' := by
  obtain ⟨j, b, hj, -, -, hs⟩ := perform?_deleteTheme h
  rcases hs with ⟨-, rfl⟩ | ⟨hOther, rfl⟩
  · exact .restarted rfl
  · have hMoved : s.moved s.active (.deleteTheme now id) =
        some (s.brandIndex, closeGap j s.themeIndex) := by
      simp only [Studio.moved, active, if_pos, hj, Option.bind_some, shift_of_ne hOther,
        Option.map_some]
    refine .kept (keepsActive_of_moved h rfl hMoved) rfl ?_
    exact activeTokens_eq_of_theme?
      (theme?_withoutTheme s now (p := s.active) rfl (shift_of_ne hOther))

theorem change_addTheme {s : Studio} (hs : Anchored s) (id : String) (now : Instant)
    (name : String) (mode : Mode) :
    Change s (.addTheme id now name mode) (s.addTheme id now name mode) := by
  obtain ⟨t, ht⟩ := hs.activeTheme?_eq_some
  rw [activeTheme?_eq] at ht
  refine .kept (keepsActive_of_moved rfl rfl rfl) rfl (activeTokens_eq_of_theme? ?_)
  exact (theme?_addTheme ht id now name mode).trans ht.symm

theorem change_commit {s s' : Studio} {op : Operation} (hs : Anchored s) {now : Instant}
    {tokens : Tree} (h : s.perform? op = some s') (hSelection : op.isSelection = false)
    (hMoved : s.moved s.active op = some s.active) (hCommit : s' = s.commit now tokens) :
    Change s op s' := by
  subst hCommit
  refine .pushed (keepsActive_of_moved h hSelection hMoved) ?_
  rw [history_commit, commit, activeTokens_writeActive (hs.withHistory _)]

theorem change_move {s s' : Studio} {op : Operation} (hs : Anchored s) {now : Instant}
    {history : History Tree} (h : s.perform? op = some s') (hSelection : op.isSelection = false)
    (hMoved : s.moved s.active op = some s.active)
    (hMove : s.history.undo? = some history ∨ s.history.redo? = some history)
    (hWrite : s' = { s with history }.writeActive now history.present) : Change s op s' := by
  subst hWrite
  refine .moved (keepsActive_of_moved h hSelection hMoved) hMove ?_
  rw [activeTokens_writeActive (hs.withHistory _), history_writeActive]

/-- **Every operation changes the history in one of the four ways.** -/
theorem change_perform {s : Studio} (hs : Anchored s) (op : Operation) :
    Change s op (s.perform op) := by
  cases h : s.perform? op with
  | none => exact (perform_of_none h).symm ▸ change_of_refused h
  | some s' =>
    rw [perform_of_some h]
    cases op with
    | createBrand ids now name description =>
      cases h
      exact .restarted rfl
    | deleteBrand id => exact change_deleteBrand h
    | renameBrand now id name =>
      obtain ⟨i, -, rfl⟩ := perform?_renameBrand h
      refine .kept (keepsActive_of_moved h rfl rfl) rfl (activeTokens_eq_of_theme? ?_)
      exact theme?_renameBrand s i now name s.active
    | selectBrand id =>
      obtain ⟨i, -, rfl⟩ := perform?_selectBrand h
      exact .restarted rfl
    | addTheme id now name mode =>
      cases h
      exact change_addTheme hs id now name mode
    | deleteTheme now id => exact change_deleteTheme h
    | selectTheme id =>
      obtain ⟨j, -, rfl⟩ := perform?_selectTheme h
      exact .restarted rfl
    | switchMode mode =>
      cases h
      exact .restarted rfl
    | update now path value => exact change_commit hs h rfl rfl (perform?_update h)
    | replaceTokens now tokens =>
      cases h
      exact change_commit hs rfl rfl rfl rfl
    | applySuggestion now patch =>
      cases h
      exact .pushed (keepsActive_of_moved rfl rfl rfl) rfl
    | suggest now suggester description =>
      obtain ⟨patch, -, hPatch⟩ := perform?_suggest h
      refine .pushed (keepsActive_of_moved h rfl (hPatch ▸ rfl)) ?_
      rw [hPatch]
      rfl
    | undo now =>
      obtain ⟨past, hPast, hWrite⟩ := perform?_undo h
      exact change_move hs h rfl rfl (Or.inl hPast) hWrite
    | redo now =>
      obtain ⟨next, hNext, hWrite⟩ := perform?_redo h
      exact change_move hs h rfl rfl (Or.inr hNext) hWrite

/-! ### The invariant -/

/-- The present of the history is the tree of the active theme, and whatever else the history
remembers is among `earlier`. -/
structure Recalls (s : Studio) (earlier : Tree → Prop) : Prop where
  present : s.history.present = s.activeTokens
  past : ∀ tree ∈ s.history.past, earlier tree
  future : ∀ tree ∈ s.history.future, earlier tree

theorem recalls_of_start {s : Studio} (h : Start s) (earlier : Tree → Prop) :
    Recalls s earlier := by
  cases h with
  | create ids now => exact ⟨rfl, nofun, nofun⟩
  | ofSnapshot h =>
    obtain ⟨-, -, rfl⟩ := ofSnapshot_eq_ok_iff.mp h
    exact ⟨rfl, nofun, nofun⟩

/-- A move in the history keeps the trees that it remembers, the present one included. -/
theorem mem_of_move {α : Type} {h h' : History α} (hMove : h.undo? = some h' ∨ h.redo? = some h')
    {x : α} (hx : x ∈ h'.past ∨ x ∈ h'.future) : x = h.present ∨ x ∈ h.past ∨ x ∈ h.future := by
  obtain ⟨past, present, future, limit⟩ := h
  rcases hMove with hUndo | hRedo
  · cases past with
    | nil => cases hUndo
    | cons previous past =>
      cases hUndo
      rcases hx with hx | hx
      · exact Or.inr (Or.inl (List.mem_cons_of_mem _ hx))
      · rcases List.mem_cons.mp hx with rfl | hx
        · exact Or.inl rfl
        · exact Or.inr (Or.inr hx)
  · cases future with
    | nil => cases hRedo
    | cons next future =>
      cases hRedo
      rcases hx with hx | hx
      · rcases List.mem_cons.mp hx with rfl | hx
        · exact Or.inl rfl
        · exact Or.inr (Or.inl hx)
      · exact Or.inr (Or.inr (List.mem_cons_of_mem _ hx))

/-- **One operation.** Where the active theme stays active, its tree so far joins the earlier
ones; where another becomes active, the history forgets everything. -/
theorem Recalls.change {s s' : Studio} {op : Operation} {earlier later : Tree → Prop}
    (h : Recalls s earlier) (hChange : Change s op s')
    (hNow : s.KeepsActive op → later s.activeTokens)
    (hStep : s.KeepsActive op → ∀ tree, earlier tree → later tree) : Recalls s' later := by
  cases hChange with
  | restarted hHistory =>
    refine ⟨?_, ?_, ?_⟩ <;> rw [hHistory]
    · rfl
    · intro _ hx
      cases hx
    · intro _ hx
      cases hx
  | kept hKeeps hHistory hTokens =>
    refine ⟨?_, ?_, ?_⟩ <;> rw [hHistory]
    · rw [hTokens, h.present]
    · exact fun tree hx => hStep hKeeps tree (h.past tree hx)
    · exact fun tree hx => hStep hKeeps tree (h.future tree hx)
  | pushed hKeeps hHistory =>
    refine ⟨?_, ?_, ?_⟩ <;> rw [hHistory]
    · rfl
    · intro tree hx
      rcases List.mem_cons.mp (List.mem_of_mem_take hx) with rfl | hx
      · rw [h.present]
        exact hNow hKeeps
      · exact hStep hKeeps tree (h.past tree hx)
    · intro _ hx
      cases hx
  | moved hKeeps hHistory hTokens =>
    have hMem : ∀ tree, tree ∈ s'.history.past ∨ tree ∈ s'.history.future → later tree := by
      intro tree hx
      rcases mem_of_move hHistory hx with rfl | hx | hx
      · rw [h.present]
        exact hNow hKeeps
      · exact hStep hKeeps tree (h.past tree hx)
      · exact hStep hKeeps tree (h.future tree hx)
    exact ⟨hTokens.symm, fun tree hx => hMem tree (Or.inl hx), fun tree hx => hMem tree (Or.inr hx)⟩

/-- **Every run.** The history remembers only what the active theme has held. -/
theorem recalls_run {start : Studio} (hStart : Start start) (ops : List Operation) :
    Recalls (start.run ops) (Held start ops) := by
  induction ops using List.reverseRecOn with
  | nil => exact recalls_of_start hStart _
  | append_singleton ops op ih =>
    rw [run_append, run_cons, run_nil]
    exact ih.change (change_perform (anchored_run hStart ops) op) held_now
      fun hKeeps tree hHeld => hHeld.step hKeeps

/-! ### Undoing and redoing -/

/-- Writing touches no theme but the active one. -/
theorem theme?_writeActive_of_ne (s : Studio) (now : Instant) (tokens : Tree) {p : Position}
    (hp : p ≠ s.active) : (s.writeActive now tokens).theme? p = s.theme? p := by
  rw [theme?_writeActive]
  simp only [if_neg (Ne.symm hp), Option.map_id']

/-- Undoing touches no theme but the active one. -/
theorem theme?_undo (s : Studio) (now : Instant) {p : Position} (hp : p ≠ s.active) :
    (s.perform (.undo now)).theme? p = s.theme? p := by
  cases h : s.perform? (.undo now) with
  | none => rw [perform_of_none h]
  | some s' =>
    obtain ⟨past, -, rfl⟩ := perform?_undo h
    rw [perform_of_some h]
    exact theme?_writeActive_of_ne { s with history := past } now past.present hp

/-- Redoing touches no theme but the active one. -/
theorem theme?_redo (s : Studio) (now : Instant) {p : Position} (hp : p ≠ s.active) :
    (s.perform (.redo now)).theme? p = s.theme? p := by
  cases h : s.perform? (.redo now) with
  | none => rw [perform_of_none h]
  | some s' =>
    obtain ⟨next, -, rfl⟩ := perform?_redo h
    rw [perform_of_some h]
    exact theme?_writeActive_of_ne { s with history := next } now next.present hp

/-- **The history belongs to the active theme.** After any operations its present is the tree of
the active theme, every tree that may come back was held by this theme before and since it last
became active, and undoing and redoing leave all other themes as they are. -/
theorem history_belongs_to_active_theme {start : Studio} (hStart : Start start)
    (ops : List Operation) :
    let s := start.run ops
    s.history.present = s.activeTokens ∧
      (∀ tree ∈ s.history.past ++ s.history.future, Held start ops tree) ∧
      ∀ (now : Instant) (p : Position), p ≠ s.active →
        (s.perform (.undo now)).theme? p = s.theme? p ∧
          (s.perform (.redo now)).theme? p = s.theme? p := by
  intro s
  have h := recalls_run hStart ops
  refine ⟨h.present, ?_, fun now p hp => ⟨theme?_undo s now hp, theme?_redo s now hp⟩⟩
  intro tree hTree
  rcases List.mem_append.mp hTree with hx | hx
  · exact h.past tree hx
  · exact h.future tree hx

/-- An edit of the dark theme, once it has moved up into the place of the light one, is remembered
as the tree it had before. -/
theorem history_belongs_to_moved_theme :
    let start := Studio.create ⟨"b", "l", "d"⟩ Instant.epoch
    let ops : List Operation :=
      [.deleteTheme Instant.epoch "l", .replaceTokens Instant.epoch .empty]
    let s := start.run ops
    Start start ∧ s.history.past = [Tree.dark] ∧ s.history.present = s.activeTokens ∧
      (∀ tree ∈ s.history.past ++ s.history.future, Held start ops tree) ∧
      ∀ (now : Instant) (p : Position), p ≠ s.active →
        (s.perform (.undo now)).theme? p = s.theme? p ∧
          (s.perform (.redo now)).theme? p = s.theme? p := by
  intro start ops s
  have hStart : Start start := .create _ _
  exact ⟨hStart, rfl, history_belongs_to_active_theme hStart ops⟩

end DesignSystem.Studio
