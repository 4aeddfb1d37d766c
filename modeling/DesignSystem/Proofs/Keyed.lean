import DesignSystem.Keyed
import Mathlib.Data.List.Induction
import Mathlib.Data.List.Sort
/-!
# What keyed entries hold

In key order, membership and looking up say the same (`mem_iff_get?`), so entries in key order are
equal as soon as the same is found under every key (`Ordered.ext`). Setting entries one after the
other loses no key (`has_setAll`), and setting entries that are in key order already gives them back
as they are (`ofList_of_ordered`).
-/

namespace DesignSystem.Keyed

variable {α : Type u} {β : Type v}

theorem mem_of_get? {es : Keyed α} {key : String} {value : α} (h : get? es key = some value) :
    (key, value) ∈ es := by
  induction es with
  | nil => simp at h
  | cons head rest ih =>
    obtain ⟨k, v⟩ := head
    rw [get?_cons] at h
    split at h
    · rename_i hKey
      cases h
      exact hKey ▸ List.mem_cons_self
    · exact List.mem_cons_of_mem _ (ih h)

theorem get?_of_mem {es : Keyed α} (hOrdered : Ordered es) {key : String} {value : α}
    (h : (key, value) ∈ es) : get? es key = some value := by
  induction es with
  | nil => cases h
  | cons head rest ih =>
    obtain ⟨k, v⟩ := head
    obtain ⟨hHead, hRest⟩ := List.pairwise_cons.mp hOrdered
    rw [get?_cons]
    rcases List.mem_cons.mp h with h | h
    · cases h
      rw [if_pos rfl]
    · rw [if_neg (String.ne_of_lt (hHead _ h))]
      exact ih hRest h

/-- **In key order, the entries are what is found under the keys.** -/
theorem mem_iff_get? {es : Keyed α} (hOrdered : Ordered es) {key : String} {value : α} :
    (key, value) ∈ es ↔ get? es key = some value :=
  ⟨get?_of_mem hOrdered, mem_of_get?⟩

/-- **In key order, entries are equal if the same is found under every key.** -/
theorem Ordered.ext {es es' : Keyed α} (h : Ordered es) (h' : Ordered es')
    (hGet : ∀ key, get? es key = get? es' key) : es = es' := by
  have : Std.Irrefl fun a b : String × α => a.1 < b.1 := ⟨fun a => String.lt_irrefl a.1⟩
  have : Std.Antisymm fun a b : String × α => a.1 < b.1 :=
    ⟨fun _ _ hLess hMore => absurd hMore (String.lt_asymm hLess)⟩
  refine List.Pairwise.eq_of_mem_iff h h' fun (key, value) => ?_
  rw [mem_iff_get? h, mem_iff_get? h', hGet]

/-- The order of entries is a matter of their keys. -/
theorem ordered_of_keys {es : Keyed α} {es' : Keyed β}
    (hKeys : es'.map Prod.fst = es.map Prod.fst) (h : Ordered es) : Ordered es' := by
  have hPairs : (es.map Prod.fst).Pairwise (· < ·) := List.pairwise_map.mpr h
  rw [← hKeys] at hPairs
  exact List.pairwise_map.mp hPairs

/-! ### Setting twice -/

theorem get?_set_self (es : Keyed α) (key : String) (value : α) :
    get? (set es key value) key = some value := by
  rw [get?_set, if_pos rfl]

theorem get?_set_of_ne (es : Keyed α) {key other : String} (h : key ≠ other) (value : α) :
    get? (set es key value) other = get? es other := by
  rw [get?_set, if_neg h]

/-- Setting what is there already changes nothing. -/
theorem Ordered.set_of_get? {es : Keyed α} (h : Ordered es) {key : String} {value : α}
    (hGet : get? es key = some value) : Keyed.set es key value = es := by
  refine Ordered.ext (h.set key value) h fun other => ?_
  rw [get?_set]
  split
  · rename_i hKey
    rw [← hKey, hGet]
  · rfl

/-- The later of two values under one key stays. -/
theorem Ordered.set_set {es : Keyed α} (h : Ordered es) (key : String) (first second : α) :
    Keyed.set (Keyed.set es key first) key second = Keyed.set es key second := by
  refine Ordered.ext ((h.set key first).set key second) (h.set key second) fun other => ?_
  rw [get?_set, get?_set, get?_set]
  split <;> rfl

/-- Values under different keys may be set in either order. -/
theorem Ordered.set_comm {es : Keyed α} (h : Ordered es) {key key' : String} (hKeys : key ≠ key')
    (value value' : α) :
    Keyed.set (Keyed.set es key value) key' value' =
      Keyed.set (Keyed.set es key' value') key value := by
  refine Ordered.ext ((h.set key value).set key' value') ((h.set key' value').set key value)
    fun other => ?_
  rw [get?_set, get?_set, get?_set, get?_set]
  by_cases hKey : key = other
  · rw [if_pos hKey, if_pos hKey, if_neg fun hKey' => hKeys (hKey.trans hKey'.symm)]
  · rw [if_neg hKey, if_neg hKey]

/-- Under each key stands what was set last, or what was there before. -/
theorem get?_setAll (es : Keyed α) {more : Keyed α} (hMore : Ordered more) (key : String) :
    get? (setAll es more) key = (get? more key).or (get? es key) := by
  induction more generalizing es with
  | nil => rfl
  | cons e rest ih =>
    obtain ⟨hHead, hRest⟩ := List.pairwise_cons.mp hMore
    have hStep : setAll es (e :: rest) = setAll (set es e.1 e.2) rest := rfl
    rw [hStep, ih _ hRest, get?_set, get?_cons]
    split
    · rename_i hKey
      cases hLater : get? rest key with
      | none => rfl
      | some value =>
        have hLess := hHead _ (mem_of_get? hLater)
        exact absurd (hKey ▸ hLess) (String.lt_irrefl key)
    · rfl

theorem ofList_concat (es : List (String × α)) (e : String × α) :
    ofList (es ++ [e]) = set (ofList es) e.1 e.2 :=
  List.foldl_append

/-- **Of entries with one key the last one counts.** -/
theorem get?_ofList (es : List (String × α)) (key : String) :
    get? (ofList es) key = get? es.reverse key := by
  induction es using List.reverseRecOn with
  | nil => rfl
  | append_singleton es e ih => rw [ofList_concat, get?_set, List.reverse_concat, get?_cons, ih]

/-- If all entries with a key agree on the value, this is what is found. -/
theorem get?_ofList_of_agree {es : List (String × α)} {key : String} {value : α}
    (hMem : (key, value) ∈ es) (hAgree : ∀ e ∈ es, e.1 = key → e.2 = value) :
    get? (ofList es) key = some value := by
  induction es using List.reverseRecOn with
  | nil => cases hMem
  | append_singleton es e ih =>
    rw [ofList_concat, get?_set]
    split
    · rename_i hKey
      rw [hAgree e (List.mem_append_right es List.mem_cons_self) hKey]
    · rename_i hKey
      refine ih ?_ fun d hd => hAgree d (List.mem_append_left [e] hd)
      rcases List.mem_append.mp hMem with hOld | hNew
      · exact hOld
      · exact absurd (congrArg Prod.fst (List.mem_singleton.mp hNew)).symm hKey

/-! ### Which keys there are -/

theorem has_eq_of_keys {es : Keyed α} {es' : Keyed β}
    (hKeys : es'.map Prod.fst = es.map Prod.fst) (key : String) : has es' key = has es key := by
  induction es generalizing es' with
  | nil => rw [List.map_eq_nil_iff.mp hKeys]; rfl
  | cons e es ih =>
    cases es' with
    | nil => cases hKeys
    | cons e' es' =>
      obtain ⟨hHead, hTail⟩ := List.cons.inj hKeys
      have hRest := ih hTail
      rw [has, has] at hRest ⊢
      rw [get?_cons, get?_cons, hHead]
      split
      · rfl
      · exact hRest

theorem has_set (es : Keyed α) (key : String) (value : α) (other : String) :
    has (set es key value) other = true ↔ key = other ∨ has es other = true := by
  rw [has, get?_set]
  by_cases hKey : key = other
  · simp [hKey]
  · simp [hKey, has]

theorem has_setAll (es more : Keyed α) (key : String) :
    has (setAll es more) key = true ↔ has es key = true ∨ ∃ e ∈ more, e.1 = key := by
  induction more generalizing es with
  | nil => simp [setAll]
  | cons e rest ih =>
    have hStep : setAll es (e :: rest) = setAll (set es e.1 e.2) rest := rfl
    rw [hStep, ih, has_set]
    constructor
    · rintro ((hKey | hOld) | ⟨d, hd, hKey⟩)
      · exact .inr ⟨e, List.mem_cons_self, hKey⟩
      · exact .inl hOld
      · exact .inr ⟨d, List.mem_cons_of_mem _ hd, hKey⟩
    · rintro (hOld | ⟨d, hd, hKey⟩)
      · exact .inl (.inr hOld)
      · rcases List.mem_cons.mp hd with rfl | hd
        · exact .inl (.inl hKey)
        · exact .inr ⟨d, hd, hKey⟩

theorem mem_setAll {es more : Keyed α} {e : String × α} (h : e ∈ setAll es more) :
    e ∈ es ∨ e ∈ more := by
  induction more generalizing es with
  | nil => exact .inl h
  | cons d rest ih =>
    rcases ih h with hSet | hRest
    · rcases mem_set hSet with rfl | hOld
      · exact .inr List.mem_cons_self
      · exact .inl hOld
    · exact .inr (List.mem_cons_of_mem d hRest)

/-- Entries put in order are among the entries. -/
theorem mem_ofList {es : List (String × α)} {e : String × α} (h : e ∈ ofList es) : e ∈ es :=
  (mem_setAll h).resolve_left List.not_mem_nil

/-- **The keys of a list of entries are kept**, in whatever order they come. -/
theorem has_ofList (es : List (String × α)) (key : String) :
    has (ofList es) key = true ↔ ∃ e ∈ es, e.1 = key := by
  rw [ofList, has_setAll]
  simp [has]

/-! ### How many keys there are -/

/-- Setting adds an entry, unless there is one with the key. -/
theorem length_set {es : Keyed α} (hOrdered : Ordered es) (key : String) (value : α) :
    (set es key value).length = if has es key = true then es.length else es.length + 1 := by
  induction es with
  | nil => rfl
  | cons head rest ih =>
    obtain ⟨k, v⟩ := head
    obtain ⟨hHead, hRest⟩ := List.pairwise_cons.mp hOrdered
    by_cases hLess : key < k
    · have hNew : get? ((k, v) :: rest) key = none := by
        refine Option.eq_none_iff_forall_ne_some.mpr fun value hGet => ?_
        rcases List.mem_cons.mp (mem_of_get? hGet) with hEq | hMem
        · cases hEq
          exact String.lt_irrefl _ hLess
        · exact String.lt_asymm hLess (hHead _ hMem)
      rw [set, if_pos hLess, has, hNew]
      rfl
    · by_cases hKey : k = key
      · rw [set, if_neg hLess, if_pos hKey, has, get?_cons, if_pos hKey]
        rfl
      · rw [set, if_neg hLess, if_neg hKey, has, get?_cons, if_neg hKey, List.length_cons, ih hRest,
          has, List.length_cons]
        split <;> rfl

theorem length_ofList_le (es : List (String × α)) : (ofList es).length ≤ es.length := by
  induction es using List.reverseRecOn with
  | nil => exact Nat.le_refl _
  | append_singleton es e ih =>
    rw [ofList_concat, length_set (ordered_ofList es), List.length_append, List.length_singleton]
    split <;> omega

/-- **No entry is lost exactly if no two have the same key.** -/
theorem length_ofList_eq_iff (es : List (String × α)) :
    (ofList es).length = es.length ↔ (es.map Prod.fst).Nodup := by
  induction es using List.reverseRecOn with
  | nil => simp [ofList, setAll]
  | append_singleton es e ih =>
    have hLess := length_ofList_le es
    have hHas : has (ofList es) e.1 = true ↔ e.1 ∈ es.map Prod.fst := by
      rw [has_ofList, List.mem_map]
    rw [ofList_concat, length_set (ordered_ofList es), List.length_append, List.length_singleton,
      List.map_append, List.map_singleton, List.nodup_append_comm, List.singleton_append,
      List.nodup_cons, ← ih, ← hHas]
    split
    · rename_i hKey
      exact iff_of_false (by omega) fun h => h.1 hKey
    · rename_i hKey
      rw [and_iff_right hKey, Nat.add_left_inj]

/-! ### Entries that are in order already -/

theorem set_of_forall_lt {es : Keyed α} {key : String} (h : ∀ e ∈ es, e.1 < key) (value : α) :
    set es key value = es ++ [(key, value)] := by
  induction es with
  | nil => rfl
  | cons head rest ih =>
    obtain ⟨k, v⟩ := head
    have hLess : k < key := h _ List.mem_cons_self
    rw [set, if_neg (String.lt_asymm hLess), if_neg (String.ne_of_lt hLess),
      ih fun e he => h e (List.mem_cons_of_mem _ he)]
    rfl

theorem setAll_of_ordered {es more : Keyed α} (h : Ordered (es ++ more)) :
    setAll es more = es ++ more := by
  induction more generalizing es with
  | nil => exact (List.append_nil es).symm
  | cons e rest ih =>
    have hLess : ∀ d ∈ es, d.1 < e.1 := by
      intro d hd
      exact (List.pairwise_append.mp h).2.2 d hd e List.mem_cons_self
    have hShift : es ++ e :: rest = (es ++ [e]) ++ rest := by
      rw [List.append_assoc, List.singleton_append]
    show setAll (set es e.1 e.2) rest = _
    rw [set_of_forall_lt hLess, hShift]
    exact ih (hShift ▸ h)

/-- **Entries in key order are their own ordered list.** -/
theorem ofList_of_ordered {es : Keyed α} (h : Ordered es) : ofList es = es :=
  setAll_of_ordered h

/-- Entries stay the same under a change of values if every single value does. -/
theorem map_values_eq_self_iff {es : Keyed α} (f : String × α → α) :
    (es.map fun e => (e.1, f e)) = es ↔ ∀ e ∈ es, f e = e.2 := by
  induction es with
  | nil => simp
  | cons e es ih =>
    rw [List.map_cons, List.cons.injEq, ih, List.forall_mem_cons, Prod.ext_iff]
    simp

/-- Entries with the keys of ordered ones are their own ordered list. -/
theorem ofList_of_keys {es : Keyed α} {es' : Keyed β} (hKeys : es'.map Prod.fst = es.map Prod.fst)
    (h : Ordered es) : ofList es' = es' :=
  ofList_of_ordered (ordered_of_keys hKeys h)

end DesignSystem.Keyed
