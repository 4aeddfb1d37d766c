/-!
# Entries in key order

A `Keyed` list holds values under text keys, in ascending order of the keys and each key once
(`Keyed.Ordered`). Keys compare by code points. Everything that a design system stores by name is
kept this way: the members of a group, the entries of a document, the style variables.
-/

namespace DesignSystem

/-- Values under text keys. -/
abbrev Keyed (α : Type u) : Type u := List (String × α)

namespace Keyed

variable {α : Type u} {β : Type v}

/-- The value under `key`. -/
def get? : Keyed α → String → Option α
  | [], _ => none
  | (k, v) :: rest, key => if k = key then some v else get? rest key

/-- Whether there is a value under `key`. -/
def has (es : Keyed α) (key : String) : Bool :=
  (get? es key).isSome

/-- The entries with `value` under `key`: in place of the old value, or as a new entry before the
first greater key. -/
def set : Keyed α → String → α → Keyed α
  | [], key, value => [(key, value)]
  | (k, v) :: rest, key, value =>
    if key < k then (key, value) :: (k, v) :: rest
    else if k = key then (key, value) :: rest
    else (k, v) :: set rest key value

/-- The entries with all of `more` set one after the other, so that of equal keys the last wins. -/
def setAll (es more : Keyed α) : Keyed α :=
  more.foldl (fun acc e => set acc e.1 e.2) es

/-- Entries in key order from entries in any order; of equal keys the last wins. -/
def ofList (es : List (String × α)) : Keyed α :=
  setAll [] es

/-- The keys in order. -/
def keys (es : Keyed α) : List String :=
  es.map Prod.fst

/-- Keys ascend strictly. -/
def Ordered (es : Keyed α) : Prop :=
  es.Pairwise fun a b => a.1 < b.1

instance (es : Keyed α) : Decidable (Ordered es) :=
  inferInstanceAs (Decidable (es.Pairwise _))

@[simp] theorem get?_nil (key : String) : get? ([] : Keyed α) key = none := rfl

theorem get?_cons (k : String) (v : α) (rest : Keyed α) (key : String) :
    get? ((k, v) :: rest) key = if k = key then some v else get? rest key := rfl

theorem ordered_nil : Ordered ([] : Keyed α) := List.Pairwise.nil

/-- Every key of the entries after a set is the new key or an old one. -/
theorem mem_set {es : Keyed α} {key : String} {value : α} {e : String × α}
    (h : e ∈ set es key value) : e = (key, value) ∨ e ∈ es := by
  induction es with
  | nil => simpa [set] using h
  | cons head rest ih =>
    obtain ⟨k, v⟩ := head
    simp only [set] at h
    split at h
    · simpa using h
    · split at h
      · rcases List.mem_cons.1 h with h | h
        · exact .inl h
        · exact .inr (List.mem_cons_of_mem _ h)
      · rcases List.mem_cons.1 h with h | h
        · exact .inr (h ▸ List.mem_cons_self)
        · rcases ih h with h | h
          · exact .inl h
          · exact .inr (List.mem_cons_of_mem _ h)

theorem Ordered.set {es : Keyed α} (h : Ordered es) (key : String) (value : α) :
    Ordered (set es key value) := by
  induction es with
  | nil => simp [Keyed.set, Ordered]
  | cons head rest ih =>
    obtain ⟨k, v⟩ := head
    have hRest := (List.pairwise_cons.1 h).2
    have hHead := (List.pairwise_cons.1 h).1
    simp only [Keyed.set]
    split
    · rename_i hLess
      refine List.pairwise_cons.2 ⟨fun e he => ?_, h⟩
      rcases List.mem_cons.1 he with he | he
      · exact he ▸ hLess
      · exact String.lt_trans hLess (hHead e he)
    · rename_i hNot
      split
      · rename_i hEq
        subst hEq
        exact List.pairwise_cons.2 ⟨hHead, hRest⟩
      · rename_i hNe
        refine List.pairwise_cons.2 ⟨fun e he => ?_, ih hRest⟩
        rcases mem_set he with he | he
        · subst he
          rcases Decidable.em (k < key) with hLt | hGe
          · exact hLt
          · exact absurd (String.le_antisymm (String.not_lt.1 hNot) (String.not_lt.1 hGe)) hNe
        · exact hHead e he

theorem Ordered.setAll {es : Keyed α} (h : Ordered es) (more : Keyed α) :
    Ordered (setAll es more) := by
  induction more generalizing es with
  | nil => exact h
  | cons e rest ih => exact ih (h.set e.1 e.2)

theorem ordered_ofList (es : List (String × α)) : Ordered (ofList es) :=
  ordered_nil.setAll es

/-- Setting a key shows under that key and under no other. -/
theorem get?_set (es : Keyed α) (key : String) (value : α) (other : String) :
    get? (set es key value) other = if key = other then some value else get? es other := by
  induction es with
  | nil => simp [set, get?]
  | cons head rest ih =>
    obtain ⟨k, v⟩ := head
    simp only [set]
    split
    · simp [get?]
    · split
      · rename_i hEq
        subst hEq
        simp only [get?]
        split <;> simp_all
      · rename_i hNe
        simp only [get?, ih]
        by_cases hk : k = other
        · subst hk
          simp [Ne.symm hNe]
        · simp [hk]

end Keyed

end DesignSystem
