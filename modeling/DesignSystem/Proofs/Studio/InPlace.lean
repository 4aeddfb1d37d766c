import DesignSystem.Proofs.Studio.Active
/-!
# Calls in place

An operation of the studio is a function, so where it is refused there is no changed studio that
could be left behind. A call is the same operation carried out on a studio that is there: it looks
things up, asks its questions and makes its changes one after the other, and what it has changed
stays changed even if it is refused afterwards (`Studio.Call`).

`Studio.on_call` says that a call answers what the operation answers and leaves the studio that
the operation gives, which is the studio as it was where the operation is refused. So a refused call
changes nothing, because every call asks all its questions before its first change
(`refused_calls_change_nothing`).
-/

namespace DesignSystem

/-! ### Histories in place -/

namespace History

variable {α : Type}

/-- Goes back in place: the latest earlier value leaves the past, takes the place of the present one
and puts this with the undone ones. -/
def undoInPlace : StateM (History α) (Option α) := do
  match (← get).past with
  | [] => return none
  | previous :: past =>
    modify ({ · with past })
    let current := (← get).present
    modify ({ · with present := previous })
    modify fun h => { h with future := current :: h.future }
    return some (← get).present

/-- Goes forward in place, the other way round. -/
def redoInPlace : StateM (History α) (Option α) := do
  match (← get).future with
  | [] => return none
  | next :: future =>
    modify ({ · with future })
    let current := (← get).present
    modify ({ · with present := next })
    modify fun h => { h with past := current :: h.past }
    return some (← get).present

theorem run_undoInPlace (h : History α) :
    undoInPlace.run h = (h.undo?.map present, h.undo?.getD h) := by
  obtain ⟨past, present, future, limit⟩ := h
  cases past <;> rfl

theorem run_redoInPlace (h : History α) :
    redoInPlace.run h = (h.redo?.map present, h.redo?.getD h) := by
  obtain ⟨past, present, future, limit⟩ := h
  cases future <;> rfl

end History

namespace Studio

/-! ### Calls -/

/-- A computation on a studio that is there. What it has changed stays, also where it is refused. -/
abbrev Call (α : Type) : Type :=
  ExceptT Refusal (StateM Studio) α

namespace Call

variable {α : Type}

/-- What a call answers on a studio, and the studio that it leaves. -/
def on (c : Call α) (s : Studio) : Except Refusal α × Studio :=
  (ExceptT.run c).run s

theorem on_pure (a : α) (s : Studio) : (pure a : Call α).on s = (.ok a, s) := rfl

theorem on_get (next : Studio → Call α) (s : Studio) :
    (get >>= next : Call α).on s = (next s).on s := rfl

theorem on_modify (f : Studio → Studio) (next : PUnit → Call α) (s : Studio) :
    (modify f >>= next : Call α).on s = (next ()).on (f s) := rfl

/-- The position of the brand with an identifier. -/
def findBrand (id : String) : Call Nat := do
  match (← get).indexOfBrand? id with
  | some i => return i
  | none => throw (.unknownBrand id)

/-- The position of the theme with an identifier in the active brand. -/
def findTheme (id : String) : Call Nat := do
  match (← get).indexOfTheme? id with
  | some i => return i
  | none => throw (.unknownTheme id)

/-- Changes the history only. -/
def onHistory (step : StateM (History Tree) α) : Call α := do
  let (a, history) := step.run (← get).history
  modify ({ · with history })
  return a

/-- Makes the theme that shows a mode in the brand at a position the active one. -/
def activate (index : Nat) (mode : Mode) : Call Bool := do
  modify ({ · with brandIndex := index })
  modify fun s => { s with
    themeIndex := (s.brands[index]?.map fun b => b.indexForMode mode).getD 0 }
  modify restart
  return true

/-- Puts a tree into the history and into the active theme. -/
def commit (now : Instant) (tokens : Tree) : Call Bool := do
  modify fun s => { s with history := s.history.push tokens }
  modify (·.writeActive now tokens)
  return true

def deleteBrand (id : String) : Call Bool := do
  let i ← findBrand id
  if (← get).brands.length = 1 then throw .lastBrand
  else
    let mode := (← get).activeMode
    modify (·.withoutBrand i)
    if i = (← get).brandIndex then activate 0 mode
    else
      if i < (← get).brandIndex then modify fun s => { s with brandIndex := s.brandIndex - 1 }
      return true

def renameBrand (now : Instant) (id name : String) : Call Bool := do
  let i ← findBrand id
  modify fun s => { s with brands := s.brands.modify i fun b => { b with name } }
  modify fun s => { s with brands := s.brands.modify i fun b => b.touch now }
  return true

def selectBrand (id : String) : Call Bool := do
  let i ← findBrand id
  activate i (← get).activeMode

def deleteTheme (now : Instant) (id : String) : Call Bool := do
  let i ← findTheme id
  match (← get).activeBrand? with
  | none => throw (.unknownTheme id)
  | some b =>
    if b.themes.length = 1 then throw (.lastTheme b.name)
    else
      let mode := (← get).activeMode
      modify (·.modifyBrand fun b => { b with themes := b.themes.eraseIdx i })
      modify (·.modifyBrand fun b => b.touch now)
      if i = (← get).themeIndex then activate (← get).brandIndex mode
      else
        if i < (← get).themeIndex then modify fun s => { s with themeIndex := s.themeIndex - 1 }
        return true

def selectTheme (id : String) : Call Bool := do
  let i ← findTheme id
  modify ({ · with themeIndex := i })
  modify restart
  return true

def update (now : Instant) (path value : String) : Call Bool := do
  let tokens := (← get).activeTokens.set path value
  if tokens = (← get).activeTokens then return false
  else commit now tokens

def suggest (now : Instant) (suggester : String → Option Tree) (description : String) :
    Call Bool := do
  match suggester description with
  | none => return false
  | some patch =>
    modify (·.applySuggestion now patch)
    return true

/-- Moves in the history and brings the active theme after it. -/
def move (now : Instant) (step : StateM (History Tree) (Option Tree)) : Call Bool := do
  match ← onHistory step with
  | none => return false
  | some tokens =>
    modify (·.writeActive now tokens)
    return true

end Call

/-- The call of an operation. Those that are never refused make their change at once. -/
def call : Operation → Call Bool
  | .createBrand ids now name description => do
    modify (·.createBrand ids now name description)
    return true
  | .deleteBrand id => Call.deleteBrand id
  | .renameBrand now id name => Call.renameBrand now id name
  | .selectBrand id => Call.selectBrand id
  | .addTheme id now name mode => do
    modify (·.addTheme id now name mode)
    return true
  | .deleteTheme now id => Call.deleteTheme now id
  | .selectTheme id => Call.selectTheme id
  | .switchMode mode => do
    Call.activate (← get).brandIndex mode
  | .update now path value => Call.update now path value
  | .replaceTokens now tokens => Call.commit now tokens
  | .applySuggestion now patch => do
    modify (·.applySuggestion now patch)
    return true
  | .suggest now suggester description => Call.suggest now suggester description
  | .undo now => Call.move now History.undoInPlace
  | .redo now => Call.move now History.redoInPlace

/-- What an operation answers: why it is refused, or whether there was anything to do. -/
def answer (s : Studio) : Operation → Except Refusal Bool
  | .deleteBrand id => (s.deleteBrand id).map fun _ => true
  | .renameBrand now id name => (s.renameBrand now id name).map fun _ => true
  | .selectBrand id => (s.selectBrand id).map fun _ => true
  | .deleteTheme now id => (s.deleteTheme now id).map fun _ => true
  | .selectTheme id => (s.selectTheme id).map fun _ => true
  | .update now path value => .ok (s.update? now path value).isSome
  | .suggest now suggester description => .ok (s.suggest? now suggester description).isSome
  | .undo now => .ok (s.undo? now).isSome
  | .redo now => .ok (s.redo? now).isSome
  | .createBrand .. | .addTheme .. | .switchMode _ | .replaceTokens .. | .applySuggestion .. =>
    .ok true

/-! ### A call does what the operation does -/

namespace Call

variable {α : Type}

theorem on_findBrand (id : String) (next : Nat → Call α) (s : Studio) :
    (findBrand id >>= next).on s = match s.indexOfBrand? id with
      | some i => (next i).on s
      | none => (.error (.unknownBrand id), s) := by
  rw [findBrand, bind_assoc, on_get]
  cases s.indexOfBrand? id <;> rfl

theorem on_findTheme (id : String) (next : Nat → Call α) (s : Studio) :
    (findTheme id >>= next).on s = match s.indexOfTheme? id with
      | some i => (next i).on s
      | none => (.error (.unknownTheme id), s) := by
  rw [findTheme, bind_assoc, on_get]
  cases s.indexOfTheme? id <;> rfl

theorem on_onHistory (step : StateM (History Tree) α) (next : α → Call Bool) (s : Studio) :
    (onHistory step >>= next).on s =
      (next (step.run s.history).1).on { s with history := (step.run s.history).2 } := rfl

/-- The end of a deletion that leaves the active entry in place. -/
theorem on_closeGap (i : Nat) (k : Studio → Nat) (write : Nat → Studio → Studio) (s : Studio) :
    (do
      if i < k (← get) then modify fun s => write (k s - 1) s
      return true : Call Bool).on s =
      (.ok true, if i < k s then write (k s - 1) s else s) := by
  rw [on_get]
  by_cases hBefore : i < k s
  · rw [if_pos hBefore, if_pos hBefore]
    rfl
  · rw [if_neg hBefore, if_neg hBefore]
    rfl

theorem on_deleteBrand (id : String) (s : Studio) : (deleteBrand id).on s =
    ((s.deleteBrand id).map fun _ => true, s.perform (.deleteBrand id)) := by
  rw [deleteBrand, on_findBrand, perform, perform?, Studio.deleteBrand]
  cases hi : s.indexOfBrand? id with
  | none => rfl
  | some i =>
    simp only [on_get]
    by_cases hOne : s.brands.length = 1
    · rw [if_pos hOne, if_pos hOne]
      rfl
    · rw [if_neg hOne, if_neg hOne]
      simp only [on_get, on_modify, withoutBrand]
      by_cases hActive : i = s.brandIndex
      · rw [if_pos hActive, if_pos hActive]
        rfl
      · rw [if_neg hActive, if_neg hActive]
        refine (on_closeGap i brandIndex (fun k s => { s with brandIndex := k }) _).trans ?_
        by_cases hBefore : i < s.brandIndex
        · simp only [if_pos hBefore]
          rfl
        · simp only [if_neg hBefore]
          rfl

theorem on_renameBrand (now : Instant) (id name : String) (s : Studio) :
    (renameBrand now id name).on s =
      ((s.renameBrand now id name).map fun _ => true, s.perform (.renameBrand now id name)) := by
  rw [renameBrand, on_findBrand, perform, perform?, Studio.renameBrand]
  cases hi : s.indexOfBrand? id with
  | none => rfl
  | some i =>
    simp only [on_modify, on_pure, List.modify_modify_eq]
    rfl

theorem on_selectBrand (id : String) (s : Studio) : (selectBrand id).on s =
    ((s.selectBrand id).map fun _ => true, s.perform (.selectBrand id)) := by
  rw [selectBrand, on_findBrand, perform, perform?, Studio.selectBrand]
  cases s.indexOfBrand? id <;> rfl

theorem on_deleteTheme (now : Instant) (id : String) (s : Studio) : (deleteTheme now id).on s =
    ((s.deleteTheme now id).map fun _ => true, s.perform (.deleteTheme now id)) := by
  rw [deleteTheme, on_findTheme, perform, perform?, Studio.deleteTheme]
  cases hj : s.indexOfTheme? id with
  | none => rfl
  | some j =>
    simp only [on_get]
    cases hb : s.activeBrand? with
    | none => rfl
    | some b =>
      by_cases hOne : b.themes.length = 1
      · simp only [if_pos hOne]
        rfl
      · simp only [if_neg hOne, on_get, on_modify, modifyBrand, List.modify_modify_eq]
        by_cases hActive : j = s.themeIndex
        · rw [if_pos hActive, if_pos hActive]
          rfl
        · rw [if_neg hActive, if_neg hActive]
          refine (on_closeGap j themeIndex (fun k s => { s with themeIndex := k }) _).trans ?_
          by_cases hBefore : j < s.themeIndex
          · simp only [if_pos hBefore]
            rfl
          · simp only [if_neg hBefore]
            rfl

theorem on_selectTheme (id : String) (s : Studio) : (selectTheme id).on s =
    ((s.selectTheme id).map fun _ => true, s.perform (.selectTheme id)) := by
  rw [selectTheme, on_findTheme, perform, perform?, Studio.selectTheme]
  cases s.indexOfTheme? id <;> rfl

theorem on_update (now : Instant) (path value : String) (s : Studio) :
    (update now path value).on s =
      (.ok (s.update? now path value).isSome, s.perform (.update now path value)) := by
  rw [update, on_get, on_get, perform, perform?, update?]
  by_cases hSame : s.activeTokens.set path value = s.activeTokens
  · rw [if_pos hSame, if_pos hSame]
    rfl
  · rw [if_neg hSame, if_neg hSame]
    rfl

theorem on_suggest (now : Instant) (suggester : String → Option Tree) (description : String)
    (s : Studio) : (suggest now suggester description).on s =
      (.ok (s.suggest? now suggester description).isSome,
        s.perform (.suggest now suggester description)) := by
  rw [suggest, perform, perform?, suggest?]
  cases suggester description <;> rfl

theorem on_move {step : StateM (History Tree) (Option Tree)}
    {moved? : History Tree → Option (History Tree)}
    (hStep : ∀ h, step.run h = ((moved? h).map History.present, (moved? h).getD h))
    (now : Instant) (s : Studio) :
    let moved := (moved? s.history).map fun h =>
      { s with history := h }.writeActive now h.present
    (move now step).on s = (.ok moved.isSome, moved.getD s) := by
  rw [move, on_onHistory, hStep]
  cases moved? s.history <;> rfl

end Call

/-- **A call answers what the operation answers, and leaves the studio that it gives.** -/
theorem on_call (op : Operation) (s : Studio) : (call op).on s = (s.answer op, s.perform op) := by
  cases op with
  | deleteBrand id => exact Call.on_deleteBrand id s
  | renameBrand now id name => exact Call.on_renameBrand now id name s
  | selectBrand id => exact Call.on_selectBrand id s
  | deleteTheme now id => exact Call.on_deleteTheme now id s
  | selectTheme id => exact Call.on_selectTheme id s
  | update now path value => exact Call.on_update now path value s
  | suggest now suggester description => exact Call.on_suggest now suggester description s
  | undo now => exact Call.on_move History.run_undoInPlace now s
  | redo now => exact Call.on_move History.run_redoInPlace now s
  | _ => rfl

/-! ### Refused calls -/

/-- An operation that does not answer that it did something gives no studio. -/
theorem perform?_of_refused {s : Studio} {op : Operation} (h : s.answer op ≠ .ok true) :
    s.perform? op = none := by
  have hError : ∀ {r : Except Refusal Studio}, (r.map fun _ => true) ≠ .ok true →
      r.toOption = none := by
    intro r hr
    cases r with
    | error e => rfl
    | ok s' => exact absurd rfl hr
  have hNothing : ∀ {o : Option Studio}, (.ok o.isSome : Except Refusal Bool) ≠ .ok true →
      o = none := by
    intro o ho
    cases o with
    | none => rfl
    | some s' => exact absurd rfl ho
  cases op with
  | deleteBrand _ | renameBrand _ _ _ | selectBrand _ | deleteTheme _ _ | selectTheme _ =>
    exact hError h
  | update _ _ _ | suggest _ _ _ | undo _ | redo _ => exact hNothing h
  | _ => exact absurd rfl h

section Deletion

variable {β : Type} (name : β → String)

/-- What the deletion of the entry with an identifier answers: it is refused for one reason if
there is no such entry, and for another if it is the only entry. -/
def deletion (unknown last : Refusal) (l : List β) (id : String) : Except Refusal Bool :=
  match l.findIdx? fun x => name x == id with
  | none => .error unknown
  | some _ => if l.length = 1 then .error last else .ok true

theorem deletion_eq_error_iff {unknown last e : Refusal} {l : List β} {id : String} :
    deletion name unknown last l id = .error e ↔
      e = unknown ∧ (∀ x ∈ l, name x ≠ id) ∨ e = last ∧ ∃ x, l = [x] ∧ name x = id := by
  unfold deletion
  cases hi : l.findIdx? fun x => name x == id with
  | none =>
    have hUnknown : ∀ x ∈ l, name x ≠ id := by
      intro x hx
      exact ne_of_beq_false (List.findIdx?_eq_none_iff.mp hi x hx)
    constructor
    · intro h
      exact Or.inl ⟨(Except.error.inj h).symm, hUnknown⟩
    · rintro (⟨rfl, -⟩ | ⟨-, x, rfl, hName⟩)
      · rfl
      · exact absurd hName (hUnknown x (List.mem_singleton_self x))
  | some i =>
    obtain ⟨hLess, hName, -⟩ := List.findIdx?_eq_some_iff_getElem.mp hi
    have hKnown : ¬∀ x ∈ l, name x ≠ id :=
      fun h => h l[i] (List.getElem_mem hLess) (eq_of_beq hName)
    by_cases hOne : l.length = 1
    · obtain ⟨x, rfl⟩ := List.length_eq_one_iff.mp hOne
      have hOnly : name x = id := by
        rw [← List.mem_singleton.mp (List.getElem_mem hLess)]
        exact eq_of_beq hName
      constructor
      · intro h
        exact Or.inr ⟨(Except.error.inj h).symm, x, rfl, hOnly⟩
      · rintro (⟨-, hUnknown⟩ | ⟨rfl, -⟩)
        · exact absurd hUnknown hKnown
        · rfl
    · show (if l.length = 1 then _ else _) = _ ↔ _
      rw [if_neg hOne]
      constructor
      · intro h
        cases h
      · rintro (⟨-, hUnknown⟩ | ⟨-, x, rfl, -⟩)
        · exact absurd hUnknown hKnown
        · exact absurd rfl hOne

end Deletion

theorem answer_deleteBrand (s : Studio) (id : String) :
    s.answer (.deleteBrand id) = deletion Brand.id (.unknownBrand id) .lastBrand s.brands id := by
  rw [answer, Studio.deleteBrand, deletion, indexOfBrand?]
  cases s.brands.findIdx? fun b => b.id == id with
  | none => rfl
  | some i =>
    by_cases hOne : s.brands.length = 1
    · simp only [if_pos hOne]
      rfl
    · simp only [if_neg hOne]
      split
      · rfl
      · split <;> rfl

theorem answer_deleteTheme {s : Studio} {b : Brand} (hb : s.activeBrand? = some b) (now : Instant)
    (id : String) : s.answer (.deleteTheme now id) =
      deletion Theme.id (.unknownTheme id) (.lastTheme b.name) b.themes id := by
  rw [answer, Studio.deleteTheme, deletion, indexOfTheme?, hb, Option.bind_some]
  cases b.themes.findIdx? fun t => t.id == id with
  | none => rfl
  | some j =>
    by_cases hOne : b.themes.length = 1
    · simp only [if_pos hOne]
      rfl
    · simp only [if_neg hOne]
      split
      · rfl
      · split <;> rfl

/-- **Refused calls change nothing.** On every studio that a session reaches, a call answers what
the operation answers and leaves the studio that it gives. If it is refused or finds nothing to do,
that is the studio as it was. A deletion is refused exactly if there is no entry with the
identifier, also where there is only one entry, or if the entry with it is the only one. -/
theorem refused_calls_change_nothing {start : Studio} (hStart : Start start)
    (ops : List Operation) :
    let s := start.run ops
    (∀ op, (call op).on s = (s.answer op, s.perform op)) ∧
      (∀ op, ((call op).on s).1 ≠ .ok true → ((call op).on s).2 = s) ∧
      (∀ id e, ((call (.deleteBrand id)).on s).1 = .error e ↔
        e = .unknownBrand id ∧ (∀ b ∈ s.brands, b.id ≠ id) ∨
        e = .lastBrand ∧ ∃ b, s.brands = [b] ∧ b.id = id) ∧
      ∃ b, s.activeBrand? = some b ∧
        ∀ now id e, ((call (.deleteTheme now id)).on s).1 = .error e ↔
          e = .unknownTheme id ∧ (∀ t ∈ b.themes, t.id ≠ id) ∨
          e = .lastTheme b.name ∧ ∃ t, b.themes = [t] ∧ t.id = id := by
  intro s
  refine ⟨fun op => on_call op s, ?_, ?_, ?_⟩
  · intro op hRefused
    rw [on_call] at hRefused ⊢
    exact perform_of_none (perform?_of_refused hRefused)
  · intro id e
    rw [on_call, answer_deleteBrand]
    exact deletion_eq_error_iff Brand.id
  · obtain ⟨b, hb, -⟩ := (anchored_run hStart ops).active
    refine ⟨b, hb, ?_⟩
    intro now id e
    rw [on_call, answer_deleteTheme hb]
    exact deletion_eq_error_iff Theme.id

/-- The only brand of a new studio stays, and an identifier that it does not have is unknown. -/
theorem only_brand_stays : Start (create ⟨"b", "l", "d"⟩ Instant.epoch) ∧
    let s := create ⟨"b", "l", "d"⟩ Instant.epoch
    (call (.deleteBrand "b")).on s = (.error .lastBrand, s) ∧
      (call (.deleteBrand "l")).on s = (.error (.unknownBrand "l"), s) := by
  have hStart := Start.create ⟨"b", "l", "d"⟩ Instant.epoch
  obtain ⟨-, hSame, hBrand, -⟩ := refused_calls_change_nothing hStart []
  have hLast := (hBrand "b" .lastBrand).mpr (Or.inr ⟨rfl, _, rfl, rfl⟩)
  have hUnknown := (hBrand "l" (.unknownBrand "l")).mpr
    (Or.inl ⟨rfl, fun b hb => by rw [List.mem_singleton.mp hb]; decide⟩)
  refine ⟨hStart, Prod.ext hLast (hSame _ ?_), Prod.ext hUnknown (hSame _ ?_)⟩
  · rw [hLast]
    exact nofun
  · rw [hUnknown]
    exact nofun

end Studio

end DesignSystem
