import DesignSystem.Proofs.History
import DesignSystem.Proofs.Studio.Recall
/-!
# Undoing a run of edits

The history of a studio holds trees of the active theme and nothing else, so it takes two facts to
say what undoing makes of all themes. One is on studios: edits, undoing and redoing touch only the
active theme, and leave there the present of the history (`Shows`). The other is on histories: as
many undos as pushes lead back, and as many redos forward again
(`History.performAll?_undo_of_push`), whatever was in the history before, but only within the limit.
-/

namespace DesignSystem.Studio

/-- Whether an operation edits the active theme and no other. -/
def Operation.isEdit : Operation → Bool
  | .update .. | .replaceTokens .. => true
  | _ => false

/-! ### The history is bounded -/

/-- Every operation keeps the history within its limit. -/
theorem fits_of_change {s s' : Studio} {op : Operation} {limit : Nat} (h : Change s op s')
    (hFits : s.history.Fits limit) : s'.history.Fits limit := by
  cases h with
  | restarted hHistory =>
    rw [hHistory]
    exact hFits.perform (.reset _)
  | kept _ hHistory _ =>
    rw [hHistory]
    exact hFits
  | pushed _ hHistory =>
    rw [hHistory]
    exact hFits.perform (.push _)
  | moved _ hHistory _ =>
    rcases hHistory with hUndo | hRedo
    · have hMove : s.history.perform? .undo = some s'.history := hUndo
      exact hFits.perform? hMove
    · have hMove : s.history.perform? .redo = some s'.history := hRedo
      exact hFits.perform? hMove

theorem fits_of_start {s : Studio} (h : Start s) : s.history.Fits History.defaultLimit := by
  cases h with
  | create ids now => exact History.fits_start _ _
  | ofSnapshot h =>
    obtain ⟨-, -, rfl⟩ := ofSnapshot_eq_ok_iff.mp h
    exact History.fits_start _ _

/-- **Every run.** -/
theorem fits_run {start : Studio} (h : Start start) (ops : List Operation) :
    (start.run ops).history.Fits History.defaultLimit := by
  induction ops using List.reverseRecOn with
  | nil => exact fits_of_start h
  | append_singleton ops op ih =>
    rw [run_append, run_cons, run_nil]
    exact fits_of_change (change_perform (anchored_run h ops) op) ih

/-! ### Showing the present of the history -/

/-- `u` has the themes of `s`, but the present of its own history in the active one. -/
structure Shows (s u : Studio) : Prop where
  active : u.active = s.active
  themes : ∀ p, u.theme? p =
    (s.theme? p).map fun t => if s.active = p then { t with tokens := u.history.present } else t

variable {s u u' : Studio}

theorem shows_self (h : s.history.present = s.activeTokens) : Shows s s := by
  refine ⟨rfl, fun p => ?_⟩
  cases hTheme : s.theme? p with
  | none => rfl
  | some t =>
    rw [Option.map_some]
    split
    · rename_i hActive
      subst hActive
      rw [h, activeTokens, activeTheme?_eq, hTheme]
      rfl
    · rfl

/-- What is shown depends on the present alone. -/
theorem Shows.theme?_eq (h : Shows s u) (h' : Shows s u')
    (hPresent : u'.history.present = u.history.present) (p : Position) :
    u'.theme? p = u.theme? p := by
  rw [h.themes, h'.themes, hPresent]

/-- Putting the present of a new history into the active theme. -/
theorem Shows.write (h : Shows s u) (history : History Tree) (now : Instant) :
    Shows s ({ u with history }.writeActive now history.present) := by
  refine ⟨h.active, fun p => ?_⟩
  have hTheme : Studio.theme? { u with history } p = u.theme? p := rfl
  have hActive : Studio.active { u with history } = s.active := h.active
  rw [theme?_writeActive, hTheme, hActive, h.themes, Option.map_map]
  refine congrArg (Option.map · (s.theme? p)) (funext fun t => ?_)
  rw [Function.comp_apply]
  split <;> rfl

/-! ### Edits -/

theorem perform?_edit {e : Operation} (hEdit : e.isEdit = true) (h : s.perform? e = some u) :
    ∃ now tokens, u = s.commit now tokens := by
  cases e with
  | update now path value => exact ⟨now, _, perform?_update h⟩
  | replaceTokens now tokens => exact ⟨now, tokens, (Option.some.inj h).symm⟩
  | _ => cases hEdit

/-- **A run of edits pushes as many trees and shows the last one.** -/
theorem Shows.edits (h : Shows s u) {edits : List Operation}
    (hEdits : ∀ e ∈ edits, e.isEdit = true) (hEdited : u.performAll? edits = some u') :
    Shows s u' ∧ ∃ trees : List Tree, trees.length = edits.length ∧
      u'.history = trees.foldl History.push u.history := by
  induction edits generalizing u with
  | nil =>
    cases hEdited
    exact ⟨h, [], rfl, rfl⟩
  | cons e edits ih =>
    obtain ⟨hEdit, hRest⟩ := List.forall_mem_cons.mp hEdits
    rw [performAll?_cons] at hEdited
    obtain ⟨next, hNext, hEdited⟩ := Option.bind_eq_some_iff.mp hEdited
    obtain ⟨now, tokens, rfl⟩ := perform?_edit hEdit hNext
    obtain ⟨hShows, trees, hLength, hHistory⟩ :=
      ih (h.write (u.history.push tokens) now) hRest hEdited
    exact ⟨hShows, tokens :: trees, congrArg (· + 1) hLength, hHistory⟩

/-! ### Moves in the history -/

/-- An operation that makes a move in the history and shows where it leads. -/
def MakesMove (op : Instant → Operation) (action : History.Action Tree) : Prop :=
  ∀ (u : Studio) (now : Instant), u.perform? (op now) = (u.history.perform? action).map fun history =>
    { u with history }.writeActive now history.present

theorem makesMove_undo : MakesMove .undo .undo := fun _ _ => rfl

theorem makesMove_redo : MakesMove .redo .redo := fun _ _ => rfl

/-- **As many moves as the history allows are carried out**, and lead to where they lead there. -/
theorem Shows.moves {op : Instant → Operation} {action : History.Action Tree}
    (hMove : MakesMove op action) (h : Shows s u) {times : List Instant} {history : History Tree}
    (hHistory : u.history.performAll? (List.replicate times.length action) = some history) :
    ∃ u', u.performAll? (times.map op) = some u' ∧ u'.history = history ∧ Shows s u' := by
  induction times generalizing u with
  | nil =>
    cases hHistory
    exact ⟨u, rfl, rfl, h⟩
  | cons now times ih =>
    rw [List.length_cons, List.replicate_succ, History.performAll?_cons] at hHistory
    obtain ⟨next, hNext, hHistory⟩ := Option.bind_eq_some_iff.mp hHistory
    have hStep : u.perform? (op now) = some ({ u with history := next }.writeActive now
        next.present) := by
      rw [hMove, hNext, Option.map_some]
    obtain ⟨u', hMoved, hEnd, hShows⟩ := ih (h.write next now) hHistory
    refine ⟨u', ?_, hEnd, hShows⟩
    rw [List.map_cons, performAll?_cons, hStep, Option.bind_some, hMoved]

/-! ### The statement -/

/-- **Undoing gives back the whole session.** In any state of a session, let up to fifty edits of
the active theme be carried out. Then as many undos are carried out and bring every theme of every
brand back to what it was, and as many redos after that bring every theme back to what the edits
made of it. -/
theorem undo_gives_back {start : Studio} (hStart : Start start) (ops : List Operation)
    {edits : List Operation} (hEdits : ∀ e ∈ edits, e.isEdit = true) (hLength : edits.length ≤ 50)
    {edited : Studio} (hEdited : (start.run ops).performAll? edits = some edited)
    {undos redos : List Instant} (hUndos : undos.length = edits.length)
    (hRedos : redos.length = edits.length) :
    ∃ undone redone,
      edited.performAll? (undos.map .undo) = some undone ∧
      (∀ p, undone.theme? p = (start.run ops).theme? p) ∧
      undone.performAll? (redos.map .redo) = some redone ∧
      ∀ p, redone.theme? p = edited.theme? p := by
  have hStarted := shows_self (recalls_run hStart ops).present
  obtain ⟨hEditedShows, trees, hTrees, hHistory⟩ := hStarted.edits hEdits hEdited
  have hLimit : trees.length + 0 ≤ (start.run ops).history.limit := by
    rw [(fits_run hStart ops).limit_eq, hTrees]
    exact hLength
  obtain ⟨back, hBack, hPresent, -⟩ := History.performAll?_undo_of_push trees _ hLimit
  rw [← hHistory, hTrees, ← hUndos] at hBack
  obtain ⟨undone, hUndone, hUndoneHistory, hUndoneShows⟩ :=
    hEditedShows.moves makesMove_undo hBack
  have hForth := History.performAll?_redo_of_undo hBack
  rw [hUndos, ← hRedos, ← hUndoneHistory] at hForth
  obtain ⟨redone, hRedone, hRedoneHistory, hRedoneShows⟩ :=
    hUndoneShows.moves makesMove_redo hForth
  refine ⟨undone, redone, hUndone, ?_, hRedone, ?_⟩
  · exact hStarted.theme?_eq hUndoneShows (hUndoneHistory ▸ hPresent)
  · exact hEditedShows.theme?_eq hRedoneShows (congrArg History.present hRedoneHistory)

/-- Fifty edits are taken back although the history was full before. -/
theorem fifty_edits_are_undone :
    let start := Studio.create ⟨"b", "l", "d"⟩ Instant.epoch
    let s := start.run (List.replicate 60 (.replaceTokens Instant.epoch .empty))
    ∃ edited undone redone,
      s.performAll? (List.replicate 50 (.replaceTokens Instant.epoch .dark)) = some edited ∧
      edited.performAll? ((List.replicate 50 Instant.epoch).map .undo) = some undone ∧
      (∀ p, undone.theme? p = s.theme? p) ∧
      undone.performAll? ((List.replicate 50 Instant.epoch).map .redo) = some redone ∧
      ∀ p, redone.theme? p = edited.theme? p := by
  intro start s
  have hEdits : ∀ e ∈ List.replicate 50 (Operation.replaceTokens Instant.epoch .dark),
      e.isEdit = true := by
    intro e he
    rw [List.eq_of_mem_replicate he]
    rfl
  have hSome : (s.performAll? (List.replicate 50 (.replaceTokens Instant.epoch .dark))).isSome :=
    rfl
  obtain ⟨edited, hEdited⟩ := Option.isSome_iff_exists.mp hSome
  have hTimes : (List.replicate 50 Instant.epoch).length =
      (List.replicate 50 (Operation.replaceTokens Instant.epoch .dark)).length := rfl
  obtain ⟨undone, redone, h⟩ :=
    undo_gives_back (.create _ _) _ hEdits (by decide) hEdited hTimes hTimes
  exact ⟨edited, undone, redone, hEdited, h⟩

end DesignSystem.Studio
