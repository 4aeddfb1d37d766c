import DesignSystem.History
import Mathlib.Data.List.Basic
/-!
# Histories as timelines

A `Timeline` is a list of values with a cursor at one of them. Going back and forward moves the
cursor, appending cuts off what comes after it, and only when more than `limit` values would come
before the new one are the oldest dropped. That is all there is to a timeline; a history keeps the
same in two stacks (`History.view`).

`view_perform?` says that every action does the same on both sides, refusals included. It rests on
one invariant, `History.Fits`: past and future together are no longer than the limit. The bound on
the past alone would not do, as redoing makes the past longer and asks for no limit. An action keeps
the invariant (`Fits.perform?`), so the two sides agree after every run (`history_is_timeline`).
-/

namespace DesignSystem

/-- A list of values, oldest first, with a cursor at one of them. -/
structure Timeline (α : Type u) where
  entries : List α
  cursor : Nat

/-- What can be done to a history. -/
inductive History.Action (α : Type u) where
  | push (value : α)
  | undo
  | redo
  | reset (value : α)

variable {α : Type u}

namespace Timeline

/-- The timeline of a single value. -/
def start (value : α) : Timeline α :=
  ⟨[value], 0⟩

/-- Moves the cursor one step back, unless it is at the first entry. -/
def back? (t : Timeline α) : Option (Timeline α) :=
  if t.cursor = 0 then none else some { t with cursor := t.cursor - 1 }

/-- Moves the cursor one step forward, unless it is at the last entry. -/
def forward? (t : Timeline α) : Option (Timeline α) :=
  if t.cursor + 1 < t.entries.length then some { t with cursor := t.cursor + 1 } else none

/-- Cuts off the entries after the cursor and appends a value, at which the cursor comes to stand.
Of the entries before it the oldest are dropped until there are no more than `limit`. -/
def append (limit : Nat) (t : Timeline α) (value : α) : Timeline α where
  entries := (t.entries.take (t.cursor + 1) ++ [value]).drop (t.cursor + 1 - limit)
  cursor := t.cursor + 1 - (t.cursor + 1 - limit)

/-- The timeline after an action, if it is not refused. -/
def perform? (limit : Nat) (t : Timeline α) : History.Action α → Option (Timeline α)
  | .push value => some (t.append limit value)
  | .undo => t.back?
  | .redo => t.forward?
  | .reset value => some (start value)

/-- The timeline after actions, of which those that are refused change nothing. -/
def run (limit : Nat) (t : Timeline α) (actions : List (History.Action α)) : Timeline α :=
  actions.foldl (fun t action => (t.perform? limit action).getD t) t

end Timeline

namespace History

/-- The history after an action, if it is not refused. -/
def perform? (h : History α) : Action α → Option (History α)
  | .push value => some (h.push value)
  | .undo => h.undo?
  | .redo => h.redo?
  | .reset value => some (h.reset value)

/-- The history after an action; one that is refused changes nothing. -/
def perform (h : History α) (action : Action α) : History α :=
  (h.perform? action).getD h

/-- The history after actions. -/
def run (h : History α) (actions : List (Action α)) : History α :=
  actions.foldl perform h

/-- The history as a timeline: the cursor stands behind the past. -/
def view (h : History α) : Timeline α :=
  ⟨h.timeline, h.past.length⟩

variable {h h' : History α} {limit : Nat}

theorem view_start (value : α) (limit : Nat) : (start value limit).view = Timeline.start value :=
  rfl

/-- The cursor stands at the present value. -/
theorem getElem?_view (h : History α) : h.view.entries[h.view.cursor]? = some h.present := by
  simp [view, timeline]

/-- Up to the cursor stands the past, and the present value last. -/
theorem take_timeline (h : History α) :
    h.timeline.take (h.past.length + 1) = (h.present :: h.past).reverse := by
  have hSplit : h.timeline = (h.present :: h.past).reverse ++ h.future := by
    simp [timeline]
  rw [hSplit]
  exact List.take_left' (by simp)

/-! ### One action -/

theorem view_undo? (h : History α) : h.undo?.map view = h.view.back? := by
  obtain ⟨past, present, future, limit⟩ := h
  cases past with
  | nil => rfl
  | cons previous past => simp [undo?, view, timeline, Timeline.back?]

theorem view_redo? (h : History α) : h.redo?.map view = h.view.forward? := by
  obtain ⟨past, present, future, limit⟩ := h
  cases future with
  | nil => simp [redo?, view, timeline, Timeline.forward?]
  | cons next future => simp [redo?, view, timeline, Timeline.forward?]

/-- A push keeps the latest of the past, which are the last entries before the cursor. -/
theorem view_push (h : History α) (value : α) :
    (h.push value).view = h.view.append h.limit value := by
  have hKept : ((h.present :: h.past).take h.limit).reverse =
      (h.present :: h.past).reverse.drop (h.past.length + 1 - h.limit) := by
    rw [List.reverse_take, List.length_cons]
  have hDropped : h.past.length + 1 - h.limit ≤ (h.present :: h.past).reverse.length := by
    simp only [List.length_reverse, List.length_cons]
    omega
  simp only [view, push, Timeline.append, take_timeline, Timeline.mk.injEq]
  constructor
  · rw [timeline, hKept, List.drop_append_of_le_length hDropped]
  · simp only [List.length_take, List.length_cons]
    omega

/-- **An action does the same to a history and to its timeline**, or is refused on both sides. -/
theorem view_perform? (h : History α) (action : Action α) :
    (h.perform? action).map view = h.view.perform? h.limit action := by
  cases action with
  | push value => exact congrArg some (view_push h value)
  | undo => exact view_undo? h
  | redo => exact view_redo? h
  | reset value => rfl

/-! ### The invariant -/

/-- The history has the limit, and past and future together do not go beyond it. -/
structure Fits (limit : Nat) (h : History α) : Prop where
  limit_eq : h.limit = limit
  length_le : h.past.length + h.future.length ≤ limit

theorem fits_start (value : α) (limit : Nat) : (start value limit).Fits limit :=
  ⟨rfl, Nat.zero_le limit⟩

/-- **Every action keeps within the limit.** What redoing adds to the past it takes from the
future. -/
theorem Fits.perform? (hFits : h.Fits limit) {action : Action α}
    (hPerform : h.perform? action = some h') : h'.Fits limit := by
  obtain ⟨past, present, future, bound⟩ := h
  obtain ⟨rfl, hLength⟩ := hFits
  cases action with
  | push value =>
    cases hPerform
    refine ⟨rfl, ?_⟩
    simp only [push, List.length_take, List.length_nil]
    omega
  | undo =>
    cases past with
    | nil => cases hPerform
    | cons previous past =>
      cases hPerform
      refine ⟨rfl, ?_⟩
      simp only [List.length_cons] at hLength ⊢
      omega
  | redo =>
    cases future with
    | nil => cases hPerform
    | cons next future =>
      cases hPerform
      refine ⟨rfl, ?_⟩
      simp only [List.length_cons] at hLength ⊢
      omega
  | reset value =>
    cases hPerform
    exact fits_start value bound

theorem Fits.perform (hFits : h.Fits limit) (action : Action α) :
    (h.perform action).Fits limit := by
  rw [History.perform]
  cases hPerform : h.perform? action with
  | none => exact hFits
  | some h' => exact hFits.perform? hPerform

/-! ### Runs -/

/-- A run keeps within the limit and does the same to the timeline. -/
theorem Fits.run (hFits : h.Fits limit) (actions : List (Action α)) :
    (h.run actions).Fits limit ∧ (h.run actions).view = h.view.run limit actions := by
  induction actions generalizing h with
  | nil => exact ⟨hFits, rfl⟩
  | cons action rest ih =>
    have hStep : (h.perform action).view = (h.view.perform? limit action).getD h.view := by
      rw [← hFits.limit_eq, ← view_perform?, History.perform]
      cases h.perform? action <;> rfl
    obtain ⟨hRest, hView⟩ := ih (hFits.perform action)
    refine ⟨hRest, ?_⟩
    rw [hStep] at hView
    exact hView

/-! ### Taking back what was pushed -/

/-- The history after actions, if none of them is refused. -/
def performAll? (h : History α) (actions : List (Action α)) : Option (History α) :=
  actions.foldlM perform? h

theorem performAll?_cons (h : History α) (action : Action α) (rest : List (Action α)) :
    h.performAll? (action :: rest) = (h.perform? action).bind (·.performAll? rest) :=
  List.foldlM_cons

theorem performAll?_concat (h : History α) (actions : List (Action α)) (last : Action α) :
    h.performAll? (actions ++ [last]) = (h.performAll? actions).bind (·.perform? last) := by
  rw [performAll?, List.foldlM_append]
  refine Option.bind_congr fun h' _ => ?_
  exact (performAll?_cons h' last []).trans (Option.bind_fun_some _)

/-- Redoing is the way back from undoing. -/
theorem redo?_of_undo? (hUndo : h.undo? = some h') : h'.redo? = some h := by
  obtain ⟨past, present, future, limit⟩ := h
  cases past with
  | nil => cases hUndo
  | cons previous past =>
    cases hUndo
    rfl

/-- **What was undone is brought back by as many redos**, together with all the history. -/
theorem performAll?_redo_of_undo {n : Nat}
    (hUndo : h.performAll? (List.replicate n .undo) = some h') :
    h'.performAll? (List.replicate n .redo) = some h := by
  induction n generalizing h' with
  | zero => exact congrArg some (Option.some.inj hUndo).symm
  | succ n ih =>
    rw [List.replicate_succ', performAll?_concat] at hUndo
    obtain ⟨middle, hMiddle, hLast⟩ := Option.bind_eq_some_iff.mp hUndo
    have hFirst : h'.perform? .redo = some middle := redo?_of_undo? hLast
    rw [List.replicate_succ, performAll?_cons, hFirst, Option.bind_some]
    exact ih hMiddle

/-- The two histories have the same present and agree on the latest `n` values of the past. -/
def SamePast (n : Nat) (h h' : History α) : Prop :=
  h'.present = h.present ∧ h'.past.take n = h.past.take n

/-- One step back from a push lies what was there before, as far as the limit allows. -/
theorem SamePast.undo? {n : Nat} {value : α} (hLimit : n + 1 ≤ h.limit)
    (hSame : SamePast (n + 1) (h.push value) h') : ∃ back, h'.undo? = some back ∧
      SamePast n h back := by
  obtain ⟨past, present, future, limit⟩ := h'
  have hPast : past.take (n + 1) = h.present :: h.past.take n := by
    rw [hSame.2, push, List.take_take, Nat.min_eq_left hLimit, List.take_succ_cons]
  cases past with
  | nil => cases hPast
  | cons previous past =>
    obtain ⟨hPresent, hRest⟩ := List.cons.inj hPast
    exact ⟨_, rfl, hPresent, hRest⟩

/-- **As many undos as pushes lead back**, as long as there are no more of them than the limit. -/
theorem performAll?_undo_of_push (values : List α) {n : Nat} (h : History α)
    (hLimit : values.length + n ≤ h.limit) : ∃ back,
      (values.foldl push h).performAll? (List.replicate values.length .undo) = some back ∧
        SamePast n h back := by
  induction values generalizing h n with
  | nil => exact ⟨h, rfl, rfl, rfl⟩
  | cons value rest ih =>
    rw [List.length_cons] at hLimit
    have hRest : rest.length + (n + 1) ≤ (h.push value).limit := by
      show rest.length + (n + 1) ≤ h.limit
      omega
    obtain ⟨middle, hMiddle, hSame⟩ := ih (h.push value) hRest
    obtain ⟨back, hBack, hPast⟩ := hSame.undo? (by omega)
    refine ⟨back, ?_, hPast⟩
    rw [List.length_cons, List.replicate_succ', performAll?_concat, List.foldl_cons, hMiddle]
    exact hBack

/-! ### The statement -/

/-- **A history is a timeline with a cursor.** After any actions, from a single value and with any
limit, the history shows what the same actions make of the timeline, with the cursor at the present
value, and the next action does the same on both sides or is refused on both. Past and future
together never go beyond the limit. -/
theorem history_is_timeline (limit : Nat) (value : α) (actions : List (Action α)) :
    let h := (start value limit).run actions
    let line := (Timeline.start value).run limit actions
    h.view = line ∧ line.entries[line.cursor]? = some h.present ∧
      (∀ action, (h.perform? action).map view = line.perform? limit action) ∧
      h.past.length + h.future.length ≤ limit ∧ h.undoDepth ≤ limit := by
  intro h line
  obtain ⟨hFits, hView⟩ := (fits_start value limit).run actions
  rw [view_start] at hView
  have hLine : h.view = line := hView
  refine ⟨hLine, ?_, fun action => ?_, hFits.length_le, ?_⟩
  · rw [← hLine]
    exact getElem?_view h
  · rw [← hLine, view_perform?, hFits.limit_eq]
  · exact Nat.le_trans (Nat.le_add_right _ _) hFits.length_le

end History

end DesignSystem
