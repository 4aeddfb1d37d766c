import DesignSystem.Proofs.Json.Numeral
import DesignSystem.Proofs.Tree.Reload
/-!
# What a YAML value represents

A YAML value represents a document (`Represents`) if it has the same form, except that the entries of
mappings may stand in any order, that values may have tags, and that a key may be left without its
quotes if it then is an integer or a truth value. For a key that is an integer this says that the
text of the key is read as that integer, and an integer has no other text (`stands_integer_iff`).

Whatever represents a document in memory becomes that document (`toJson_of_represents`): no two
entries fall together and none is lost. So **a tree may be written in YAML or as a document, and is
loaded or refused alike** (`readYaml_eq_ofValue`).
-/

namespace DesignSystem

namespace Keyed

variable {α : Type u}

/-- **Entries in key order are the ordered list of their permutations.** -/
theorem ofList_of_perm {es : Keyed α} {es' : List (String × α)} (h : Ordered es)
    (hPerm : es'.Perm es) : ofList es' = es := by
  refine Ordered.ext (ordered_ofList es') h fun key => ?_
  cases hGet : get? es key with
  | none =>
    rw [Option.eq_none_iff_forall_ne_some]
    intro value hValue
    have hMem := hPerm.subset (mem_ofList (mem_of_get? hValue))
    rw [get?_of_mem h hMem] at hGet
    cases hGet
  | some value =>
    apply get?_ofList_of_agree
    · exact hPerm.mem_iff.mpr (mem_of_get? hGet)
    · rintro ⟨other, value'⟩ hMem rfl
      have hGet' := get?_of_mem h (hPerm.subset hMem)
      exact Option.some.inj (hGet'.symm.trans hGet)

end Keyed

namespace Yaml

/-! ### Equality is decidable -/

/-- Decides equality of numbers. -/
protected def Number.decEq : (a b : Number) → Decidable (a = b)
  | .int x _, b => match b with
    | .int y _ => decidable_of_iff (x = y) (by simp)
    | .float _ | .infinity _ | .notANumber => .isFalse nofun
  | .float x, b => match b with
    | .float y => decidable_of_iff (x = y) (by simp)
    | .int .. | .infinity _ | .notANumber => .isFalse nofun
  | .infinity x, b => match b with
    | .infinity y => decidable_of_iff (x = y) (by simp)
    | .int .. | .float _ | .notANumber => .isFalse nofun
  | .notANumber, b => match b with
    | .notANumber => .isTrue rfl
    | .int .. | .float _ | .infinity _ => .isFalse nofun

instance : DecidableEq Number := Number.decEq

mutual

/-- Decides equality of values. -/
protected def decEq : (a b : Yaml) → Decidable (a = b)
  | .null, b => match b with
    | .null => .isTrue rfl
    | .bool _ | .number _ | .string _ | .sequence _ | .mapping _ | .tagged .. => .isFalse nofun
  | .bool x, b => match b with
    | .bool y => decidable_of_iff (x = y) (by simp)
    | .null | .number _ | .string _ | .sequence _ | .mapping _ | .tagged .. => .isFalse nofun
  | .number x, b => match b with
    | .number y => decidable_of_iff (x = y) (by simp)
    | .null | .bool _ | .string _ | .sequence _ | .mapping _ | .tagged .. => .isFalse nofun
  | .string x, b => match b with
    | .string y => decidable_of_iff (x = y) (by simp)
    | .null | .bool _ | .number _ | .sequence _ | .mapping _ | .tagged .. => .isFalse nofun
  | .sequence xs, b => match b with
    | .sequence ys => @decidable_of_iff _ (xs = ys) (by simp) (Yaml.decEqItems xs ys)
    | .null | .bool _ | .number _ | .string _ | .mapping _ | .tagged .. => .isFalse nofun
  | .mapping xs, b => match b with
    | .mapping ys => @decidable_of_iff _ (xs = ys) (by simp) (Yaml.decEqEntries xs ys)
    | .null | .bool _ | .number _ | .string _ | .sequence _ | .tagged .. => .isFalse nofun
  | .tagged s x, b => match b with
    | .tagged t y =>
      @decidable_of_iff _ (s = t ∧ x = y) (by simp) (@instDecidableAnd _ _ _ (Yaml.decEq x y))
    | .null | .bool _ | .number _ | .string _ | .sequence _ | .mapping _ => .isFalse nofun

/-- Decides equality of the items of sequences. -/
protected def decEqItems : (xs ys : List Yaml) → Decidable (xs = ys)
  | [], [] => .isTrue rfl
  | [], _ :: _ | _ :: _, [] => .isFalse nofun
  | x :: xs, y :: ys =>
    @decidable_of_iff _ (x = y ∧ xs = ys) (by simp)
      (@instDecidableAnd _ _ (Yaml.decEq x y) (Yaml.decEqItems xs ys))

/-- Decides equality of the entries of mappings. -/
protected def decEqEntries : (xs ys : List (Yaml × Yaml)) → Decidable (xs = ys)
  | [], [] => .isTrue rfl
  | [], _ :: _ | _ :: _, [] => .isFalse nofun
  | (k, x) :: xs, (l, y) :: ys =>
    @decidable_of_iff _ (k = l ∧ x = y ∧ xs = ys) (by simp [and_assoc])
      (@instDecidableAnd _ _ (Yaml.decEq k l)
        (@instDecidableAnd _ _ (Yaml.decEq x y) (Yaml.decEqEntries xs ys)))

end

instance : DecidableEq Yaml := Yaml.decEq

/-! ### Representing a document -/

/-- A key of a mapping stands for the text of a key: as that text, or as what the text is read as. -/
inductive Stands : Yaml → String → Prop
  | string (key : String) : Stands (.string key) key
  | integer {key : String} {t : Json.NumberText} {value : Int} {inRange : Json.InWordRange value}
      (hRead : Json.NumberText.ofChars key.toList = some t)
      (hInt : t.int? = some (.int value inRange)) : Stands (.number (.int value inRange)) key
  | true : Stands (.bool true) "true"
  | false : Stands (.bool false) "false"

mutual

/-- A value represents a document whose numbers are integers. -/
inductive Represents : Yaml → Json → Prop
  | null : Represents .null .null
  | bool (b : Bool) : Represents (.bool b) (.bool b)
  | integer (value : Int) (inRange : Json.InWordRange value) :
      Represents (.number (.int value inRange)) (.number (.int value inRange))
  | string (s : String) : Represents (.string s) (.string s)
  | sequence {ys : List Yaml} {items : List Json} (hItems : ItemsRepresent ys items) :
      Represents (.sequence ys) (.array items)
  | mapping {es es' : List (Yaml × Yaml)} {entries : List (String × Json)} (hPerm : es'.Perm es)
      (hEntries : EntriesRepresent es entries) : Represents (.mapping es') (.object entries)
  | tagged (tag : String) {y : Yaml} {j : Json} (hValue : Represents y j) :
      Represents (.tagged tag y) j

/-- The items of a sequence represent those of an array, one by one. -/
inductive ItemsRepresent : List Yaml → List Json → Prop
  | nil : ItemsRepresent [] []
  | cons {y : Yaml} {j : Json} {ys : List Yaml} {items : List Json} (hItem : Represents y j)
      (hItems : ItemsRepresent ys items) : ItemsRepresent (y :: ys) (j :: items)

/-- The entries of a mapping represent those of an object, one by one. -/
inductive EntriesRepresent : List (Yaml × Yaml) → List (String × Json) → Prop
  | nil : EntriesRepresent [] []
  | cons {k y : Yaml} {key : String} {j : Json} {es : List (Yaml × Yaml)}
      {entries : List (String × Json)} (hKey : Stands k key) (hValue : Represents y j)
      (hEntries : EntriesRepresent es entries) :
      EntriesRepresent ((k, y) :: es) ((key, j) :: entries)

end

/-! ### The document of what represents it -/

/-- An integer stands for its text and for no other. -/
theorem stands_integer_iff {key : String} {value : Int} {inRange : Json.InWordRange value} :
    Stands (.number (.int value inRange)) key ↔ key = toString value := by
  constructor
  · intro h
    cases h with
    | integer hRead hInt => exact (String.toList_inj.mp (Json.toString_of_int? hRead hInt)).symm
  · rintro rfl
    exact .integer (Json.ofChars_toString_int value) (Json.int?_intText inRange)

theorem keyText?_of_stands {k : Yaml} {key : String} (h : Stands k key) : k.keyText? = some key := by
  cases h with
  | string key => rfl
  | integer hRead hInt => exact congrArg some (stands_integer_iff.mp (.integer hRead hInt)).symm
  | true => rfl
  | false => rfl

/-- Entries become entries one by one, except those that are left out. -/
theorem entriesToJson_eq_filterMap (es : List (Yaml × Yaml)) :
    entriesToJson es = es.filterMap fun e => e.1.keyText?.map fun key => (key, e.2.toJson) := by
  induction es with
  | nil => rfl
  | cons e es ih =>
    rw [entriesToJson, List.filterMap_cons]
    cases hKey : e.1.keyText? with
    | none => exact ih
    | some key => exact congrArg _ ih

theorem entriesToJson_perm {es es' : List (Yaml × Yaml)} (h : es'.Perm es) :
    (entriesToJson es').Perm (entriesToJson es) := by
  rw [entriesToJson_eq_filterMap, entriesToJson_eq_filterMap]
  exact h.filterMap _

mutual

/-- **What represents a document in key order becomes that document.** -/
theorem toJson_of_represents : ∀ {y : Yaml} {j : Json}, y.Represents j → j.Ordered → y.toJson = j
  | _, _, .null, _ => rfl
  | _, _, .bool _, _ => rfl
  | _, _, .integer _ _, _ => rfl
  | _, _, .string _, _ => rfl
  | _, _, .sequence hItems, hOrdered => by
    rw [toJson, itemsToJson_of_represent hItems hOrdered]
  | _, _, .mapping hPerm hEntries, hOrdered => by
    obtain ⟨hKeys, hValues⟩ := hOrdered
    have hSame := entriesToJson_of_represent hEntries hValues
    rw [toJson, Keyed.ofList_of_perm hKeys (hSame ▸ entriesToJson_perm hPerm)]
  | _, _, .tagged _ hValue, hOrdered => by
    rw [toJson, toJson_of_represents hValue hOrdered]

theorem itemsToJson_of_represent : ∀ {ys : List Yaml} {items : List Json},
    ItemsRepresent ys items → Json.ItemsOrdered items → itemsToJson ys = items
  | _, _, .nil, _ => rfl
  | _, _, .cons hItem hItems, ⟨hHead, hTail⟩ => by
    rw [itemsToJson, toJson_of_represents hItem hHead, itemsToJson_of_represent hItems hTail]

theorem entriesToJson_of_represent : ∀ {es : List (Yaml × Yaml)} {entries : List (String × Json)},
    EntriesRepresent es entries → Json.EntriesOrdered entries → entriesToJson es = entries
  | _, _, .nil, _ => rfl
  | _, _, .cons hKey hValue hEntries, ⟨hHead, hTail⟩ => by
    rw [entriesToJson, keyText?_of_stands hKey, toJson_of_represents hValue hHead,
      entriesToJson_of_represent hEntries hTail]

end

/-- **A tree in YAML loads like the document that it represents.** The value becomes the document
itself, so any text that denotes it gives the tree of the document, or is refused for the same kind
of document. -/
theorem loads_as_represented {y : Yaml} {v : Json.Value} (h : y.Represents v.doc) :
    y.toJson = v.doc ∧ ∀ text, read text = some y → Tree.readYaml text = Tree.ofValue v := by
  have hSame := toJson_of_represents h v.ordered
  refine ⟨hSame, fun text hRead => ?_⟩
  rw [Tree.readYaml, hRead, Tree.ofValue, ← hSame]

/-- A tree with keys of all kinds and with tags, in no order. -/
def looseText : String :=
  "500: !step \x7bvalue: 1\x7d\ntrue: [~, !neg -2]\n" ++
    "neutral: \x7b-7: \x7bvalue: gray\x7d, \"1.5\": \x7bvalue: x\x7d\x7d\n"

/-- What it denotes. -/
def loose : Yaml :=
  .mapping [
    (.number (.int 500 (by decide)),
      .tagged "step" (.mapping [(.string "value", .number (.int 1 (by decide)))])),
    (.bool true, .sequence [.null, .tagged "neg" (.number (.int (-2) (by decide)))]),
    (.string "neutral", .mapping [
      (.number (.int (-7) (by decide)), .mapping [(.string "value", .string "gray")]),
      (.string "1.5", .mapping [(.string "value", .string "x")])])]

/-- The document with quoted keys, no tags and the keys in order. -/
def strict : Json :=
  .object [
    ("500", .object [("value", .number (.int 1 (by decide)))]),
    ("neutral", .object [
      ("-7", .object [("value", .string "gray")]), ("1.5", .object [("value", .string "x")])]),
    ("true", .array [.null, .number (.int (-2) (by decide))])]

theorem loose_represents : loose.Represents strict := by
  refine .mapping (.cons _ (.swap _ _ _)) (.cons ?_ ?_ (.cons ?_ ?_ (.cons ?_ ?_ .nil)))
  · exact stands_integer_iff.mpr (by decide +kernel)
  · exact .tagged _ (.mapping (.refl _) (.cons (.string _) (.integer _ _) .nil))
  · exact .string _
  · refine .mapping (.refl _) (.cons ?_ ?_ (.cons (.string _) ?_ .nil))
    · exact stands_integer_iff.mpr (by decide +kernel)
    · exact .mapping (.refl _) (.cons (.string _) (.string _) .nil)
    · exact .mapping (.refl _) (.cons (.string _) (.string _) .nil)
  · exact .true
  · exact .sequence (.cons .null (.cons (.tagged _ (.integer _ _)) .nil))

theorem loose_loads_as_strict : loose.Represents strict.toValue.doc ∧
    read looseText = some loose ∧ loose.toJson = strict.toValue.doc ∧
    Tree.readYaml looseText = Tree.ofValue strict.toValue := by
  have hDoc : strict.toValue.doc = strict := by decide +kernel
  have hRepresents : loose.Represents strict.toValue.doc := hDoc.symm ▸ loose_represents
  have hRead : read looseText = some loose := by decide +kernel
  obtain ⟨hSame, hLoads⟩ := loads_as_represented hRepresents
  exact ⟨hRepresents, hRead, hSame, hLoads looseText hRead⟩

end Yaml

end DesignSystem
