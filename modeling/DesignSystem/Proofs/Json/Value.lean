import DesignSystem.Json.Basic
import DesignSystem.Proofs.Keyed
/-!
# Documents in memory

A document that is only written may list the entries of an object in an order of its own. One that is
held in memory has them in key order, each key once, on every level (`Ordered`); `Value` packs it
with this fact. Every document becomes a value by putting its objects in order (`toValue`), and if
they are in order already it stays as it is (`inKeyOrder_of_ordered`).
-/

namespace DesignSystem.Json

/-! ### Induction -/

/-- **Induction on documents**: what holds of a document whenever it holds of all items or values
directly in it holds of every document. -/
@[elab_as_elim]
theorem induction {motive : Json → Prop} (null : motive .null) (bool : ∀ b, motive (.bool b))
    (number : ∀ n, motive (.number n)) (string : ∀ s, motive (.string s))
    (array : ∀ items, (∀ x ∈ items, motive x) → motive (.array items))
    (object : ∀ entries : List (String × Json),
      (∀ e ∈ entries, motive e.2) → motive (.object entries)) (j : Json) : motive j := by
  -- items and entries have motives of their own, and so has a single entry
  refine @Json.rec motive (fun items => ∀ x ∈ items, motive x)
    (fun entries => ∀ e ∈ entries, motive e.2) (fun e => motive e.2)
    null bool number string array object nofun ?_ nofun ?_ ?_ j
  · intro x xs hHead hTail
    exact List.forall_mem_cons.mpr ⟨hHead, hTail⟩
  · intro e es hHead hTail
    exact List.forall_mem_cons.mpr ⟨hHead, hTail⟩
  · intro key x hValue
    exact hValue

/-! ### Key order -/

mutual

/-- All objects in the document are in key order. -/
def Ordered : Json → Prop
  | .null | .bool _ | .number _ | .string _ => True
  | .array items => ItemsOrdered items
  | .object entries => Keyed.Ordered entries ∧ EntriesOrdered entries

/-- Each of the items of an array is ordered. -/
def ItemsOrdered : List Json → Prop
  | [] => True
  | x :: xs => x.Ordered ∧ ItemsOrdered xs

/-- Each of the values of an object is ordered. -/
def EntriesOrdered : List (String × Json) → Prop
  | [] => True
  | (_, x) :: es => x.Ordered ∧ EntriesOrdered es

end

theorem itemsOrdered_iff {items : List Json} : ItemsOrdered items ↔ ∀ x ∈ items, x.Ordered := by
  induction items with
  | nil => simp [ItemsOrdered]
  | cons x xs ih => simp [ItemsOrdered, ih]

theorem entriesOrdered_iff {entries : List (String × Json)} :
    EntriesOrdered entries ↔ ∀ e ∈ entries, e.2.Ordered := by
  induction entries with
  | nil => simp [EntriesOrdered]
  | cons e es ih => simp [EntriesOrdered, ih]

mutual

/-- The document with the entries of all objects put in key order; of equal keys the last wins. -/
def inKeyOrder : Json → Json
  | .null => .null
  | .bool b => .bool b
  | .number n => .number n
  | .string s => .string s
  | .array items => .array (itemsInKeyOrder items)
  | .object entries => .object (Keyed.ofList (entriesInKeyOrder entries))

/-- The items of an array, each with its objects put in key order. -/
def itemsInKeyOrder : List Json → List Json
  | [] => []
  | x :: xs => x.inKeyOrder :: itemsInKeyOrder xs

/-- The entries of an object in their order, each with the objects in its value put in key order. -/
def entriesInKeyOrder : List (String × Json) → List (String × Json)
  | [] => []
  | (key, x) :: es => (key, x.inKeyOrder) :: entriesInKeyOrder es

end

theorem itemsInKeyOrder_eq_map (items : List Json) :
    itemsInKeyOrder items = items.map inKeyOrder := by
  induction items with
  | nil => rfl
  | cons x xs ih => rw [itemsInKeyOrder, ih, List.map_cons]

theorem entriesInKeyOrder_eq_map (entries : List (String × Json)) :
    entriesInKeyOrder entries = entries.map fun e => (e.1, e.2.inKeyOrder) := by
  induction entries with
  | nil => rfl
  | cons e es ih => rw [entriesInKeyOrder, ih, List.map_cons]

/-- Put in key order, a document is in key order. -/
theorem ordered_inKeyOrder (j : Json) : j.inKeyOrder.Ordered := by
  induction j using Json.induction with
  | null | bool b | number n | string s => trivial
  | array items ih =>
    rw [inKeyOrder, Ordered, itemsOrdered_iff, itemsInKeyOrder_eq_map]
    intro x hx
    obtain ⟨y, hy, rfl⟩ := List.mem_map.mp hx
    exact ih y hy
  | object entries ih =>
    rw [inKeyOrder, Ordered, entriesOrdered_iff, entriesInKeyOrder_eq_map]
    refine ⟨Keyed.ordered_ofList _, fun e he => ?_⟩
    obtain ⟨d, hd, rfl⟩ := List.mem_map.mp (Keyed.mem_ofList he)
    exact ih d hd

/-- **A document in key order stays as it is.** -/
theorem inKeyOrder_of_ordered {j : Json} (h : j.Ordered) : j.inKeyOrder = j := by
  induction j using Json.induction with
  | null | bool b | number n | string s => rfl
  | array items ih =>
    have hItems := itemsOrdered_iff.mp h
    have hSame : items.map inKeyOrder = items.map id :=
      List.map_congr_left fun x hx => ih x hx (hItems x hx)
    rw [inKeyOrder, itemsInKeyOrder_eq_map, hSame, List.map_id]
  | object entries ih =>
    obtain ⟨hKeys, hValues⟩ := h
    have hEntries := entriesOrdered_iff.mp hValues
    have hSame : (entries.map fun e => (e.1, e.2.inKeyOrder)) = entries :=
      (Keyed.map_values_eq_self_iff _).mpr fun e he => ih e he (hEntries e he)
    rw [inKeyOrder, entriesInKeyOrder_eq_map, hSame, Keyed.ofList_of_ordered hKeys]

/-! ### Values -/

/-- A document as it is held in memory. -/
structure Value where
  doc : Json
  ordered : doc.Ordered

/-- The value of a document. -/
def toValue (j : Json) : Value :=
  ⟨j.inKeyOrder, j.ordered_inKeyOrder⟩

end DesignSystem.Json
