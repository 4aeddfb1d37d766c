/-!
# Bounded histories

A history is a present value with the values that came before it and the values that were undone.
It is a timeline with a cursor: undoing and redoing move the cursor and leave the timeline as it is
(`History.timeline_undo?`, `History.timeline_redo?`), while a push cuts off what was undone and
keeps at most `limit` earlier values.
-/

namespace DesignSystem

/-- A present value among earlier and undone ones. The earlier values are listed latest first, the
undone ones in the order in which they come back. -/
structure History (α : Type u) where
  past : List α
  present : α
  future : List α
  limit : Nat
  deriving DecidableEq

namespace History

variable {α : Type u}

/-- How many earlier values are kept unless said otherwise. -/
def defaultLimit : Nat :=
  50

/-- The history that holds nothing but a present value. -/
def start (present : α) (limit : Nat) : History α :=
  ⟨[], present, [], limit⟩

/-- Makes a value the present one. The oldest values beyond the limit are dropped, and nothing
remains to be redone. -/
def push (h : History α) (value : α) : History α :=
  { h with past := (h.present :: h.past).take h.limit, present := value, future := [] }

/-- Goes back to the latest earlier value, if there is one. -/
def undo? (h : History α) : Option (History α) :=
  match h.past with
  | [] => none
  | previous :: past => some { h with past, present := previous, future := h.present :: h.future }

/-- Goes forward to the value undone last, if there is one. -/
def redo? (h : History α) : Option (History α) :=
  match h.future with
  | [] => none
  | next :: future => some { h with past := h.present :: h.past, present := next, future }

/-- Forgets everything but a new present value. -/
def reset (h : History α) (present : α) : History α :=
  start present h.limit

/-- Whether there is a value to go back to. -/
def canUndo (h : History α) : Bool :=
  !h.past.isEmpty

/-- Whether there is a value to go forward to. -/
def canRedo (h : History α) : Bool :=
  !h.future.isEmpty

/-- How many values there are to go back to. -/
def undoDepth (h : History α) : Nat :=
  h.past.length

/-- All values from the oldest to the one that comes back last. -/
def timeline (h : History α) : List α :=
  h.past.reverse ++ h.present :: h.future

theorem timeline_undo? {h h' : History α} (hUndo : h.undo? = some h') :
    h'.timeline = h.timeline := by
  obtain ⟨past, present, future, limit⟩ := h
  cases past with
  | nil => cases hUndo
  | cons previous past =>
    cases hUndo
    simp [timeline]

theorem timeline_redo? {h h' : History α} (hRedo : h.redo? = some h') :
    h'.timeline = h.timeline := by
  obtain ⟨past, present, future, limit⟩ := h
  cases future with
  | nil => cases hRedo
  | cons next future =>
    cases hRedo
    simp [timeline]

end History

end DesignSystem
