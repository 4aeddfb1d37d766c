import DesignSystem.Json.Record
import DesignSystem.Proofs.Json.Spelling
import DesignSystem.Proofs.Keyed
/-!
# Which documents are read back

`Json/Spelling.lean` shows that a text is read as the document that was written. Taking the value of
what was written need not give the document back: it may be too deep, an object may list its entries
in an order of its own, and a floating-point number may come out as a neighbour. `Readable` says
that none of this happens, and `value_source_iff` that nothing else can go wrong. Strings and keys
always come back (`decodeText_piecesOf`), and so do integers.
-/

namespace DesignSystem.Json

/-! ### Strings -/

theorem decodePieces_unit {n : Nat} (h : n < 0x20) (rest : List Piece) :
    decodePieces (.unit n :: rest) = (decodePieces rest).map (Char.ofNat n :: ·) := by
  have hHigh : isHighSurrogate n = false := by
    rw [isHighSurrogate, decide_eq_false (by omega), Bool.false_and]
  have hLow : isLowSurrogate n = false := by
    rw [isLowSurrogate, decide_eq_false (by omega), Bool.false_and]
  cases rest with
  | nil => simp [decodePieces, hHigh, hLow]
  | cons p rest =>
    cases p with
    | char c => simp [decodePieces, hHigh, hLow]
    | unit m => simp [decodePieces, hHigh, hLow]

theorem decodePieces_map_pieceOf (cs : List Char) : decodePieces (cs.map pieceOf) = some cs := by
  induction cs with
  | nil => rfl
  | cons c cs ih =>
    have hChar : decodePieces (.char c :: cs.map pieceOf) = some (c :: cs) := by
      rw [decodePieces, ih, Option.map_some]
    rw [List.map_cons, pieceOf]
    split
    · exact hChar
    · split
      · rename_i hControl
        rw [decodePieces_unit hControl, ih, Option.map_some, Char.ofNat_toNat]
      · exact hChar

/-- **A string is read back.** -/
theorem decodeText_piecesOf (s : String) : decodeText (piecesOf s) = some s := by
  rw [decodeText, piecesOf, decodePieces_map_pieceOf, Option.map_some, String.ofList_toList]

/-! ### Values -/

/-- The number read from the number's text is the number. -/
def Number.Rereads (n : Number) : Prop :=
  n.text.number? = some n

instance (n : Number) : Decidable n.Rereads :=
  inferInstanceAs (Decidable (_ = _))

theorem rereads_int {i : Int} (h : InWordRange i) : (Number.int i h).Rereads := by
  have hText := number?_write_int h
  rwa [Number.ofChars_write, Option.bind_some] at hText

mutual

/-- The document has no more than `depth` levels, its objects are in key order, and its numbers are
read back. -/
def Readable (depth : Nat) : Json → Prop
  | .null | .bool _ | .string _ => True
  | .number n => n.Rereads
  | .array items => 0 < depth ∧ ItemsReadable (depth - 1) items
  | .object entries => 0 < depth ∧ Keyed.Ordered entries ∧ EntriesReadable (depth - 1) entries

/-- Each of the items of an array is readable. -/
def ItemsReadable (depth : Nat) : List Json → Prop
  | [] => True
  | x :: xs => x.Readable depth ∧ ItemsReadable depth xs

/-- Each of the values of an object is readable. -/
def EntriesReadable (depth : Nat) : List (String × Json) → Prop
  | [] => True
  | (_, x) :: es => x.Readable depth ∧ EntriesReadable depth es

end

mutual

/-- Decides whether a document is readable. -/
def decideReadable (depth : Nat) : (j : Json) → Decidable (j.Readable depth)
  | .null | .bool _ | .string _ => .isTrue trivial
  | .number n => inferInstanceAs (Decidable n.Rereads)
  | .array items => @instDecidableAnd _ _ _ (decideItemsReadable (depth - 1) items)
  | .object entries => @instDecidableAnd _ _ _
    (@instDecidableAnd _ _ _ (decideEntriesReadable (depth - 1) entries))

/-- Decides whether the items of an array are readable. -/
def decideItemsReadable (depth : Nat) : (xs : List Json) → Decidable (ItemsReadable depth xs)
  | [] => .isTrue trivial
  | x :: xs => @instDecidableAnd _ _ (decideReadable depth x) (decideItemsReadable depth xs)

/-- Decides whether the values of an object are readable. -/
def decideEntriesReadable (depth : Nat) :
    (es : List (String × Json)) → Decidable (EntriesReadable depth es)
  | [] => .isTrue trivial
  | (_, x) :: es => @instDecidableAnd _ _ (decideReadable depth x) (decideEntriesReadable depth es)

end

instance (depth : Nat) (j : Json) : Decidable (j.Readable depth) :=
  decideReadable depth j

theorem value_array_succ (depth : Nat) (items : List Source) :
    Source.value (depth + 1) (.array items) = (Source.itemValues depth items).map .array := by
  rw [Source.value]

theorem value_object_succ (depth : Nat) (entries : List (List Piece × Source)) :
    Source.value (depth + 1) (.object entries) =
      (Source.entryValues depth entries).map fun es => .object (Keyed.ofList es) := by
  rw [Source.value]

theorem itemValues_cons (depth : Nat) (s : Source) (rest : List Source) :
    Source.itemValues depth (s :: rest) = (s.value depth).bind fun v =>
      (Source.itemValues depth rest).bind fun vs => some (v :: vs) := by
  rw [Source.itemValues]
  rfl

theorem entryValues_cons (depth : Nat) (key : String) (s : Source)
    (rest : List (List Piece × Source)) :
    Source.entryValues depth ((piecesOf key, s) :: rest) = (s.value depth).bind fun v =>
      (Source.entryValues depth rest).bind fun vs => some ((key, v) :: vs) := by
  rw [Source.entryValues, decodeText_piecesOf]
  rfl

/-- The keys of an object are read back, whatever becomes of the values. -/
theorem keys_entryValues {depth : Nat} {es es' : List (String × Json)}
    (h : Source.entryValues depth (entrySources es) = some es') :
    es'.map Prod.fst = es.map Prod.fst := by
  induction es generalizing es' with
  | nil =>
    cases h
    rfl
  | cons e es ih =>
    obtain ⟨k, x⟩ := e
    rw [entrySources, entryValues_cons] at h
    obtain ⟨v, -, h⟩ := Option.bind_eq_some_iff.mp h
    obtain ⟨vs, hRest, h⟩ := Option.bind_eq_some_iff.mp h
    cases h
    rw [List.map_cons, List.map_cons, ih hRest]

mutual

/-- **A document is read back exactly if it is readable.** -/
theorem value_source_iff (depth : Nat) :
    (j : Json) → (j.source.value depth = some j ↔ j.Readable depth)
  | .null => by simp [source, Source.value, Readable]
  | .bool b => by simp [source, Source.value, Readable]
  | .number n => by simp [source, Source.value, Readable, Number.Rereads]
  | .string s => by simp [source, Source.value, Readable, decodeText_piecesOf]
  | .array items => by
    cases depth with
    | zero => simp [source, Source.value, Readable]
    | succ depth =>
      have hItems := itemValues_source_iff depth items
      rw [source, value_array_succ, Readable, Nat.add_sub_cancel, ← hItems,
        Option.map_eq_some_iff]
      simp
  | .object entries => by
    cases depth with
    | zero => simp [source, Source.value, Readable]
    | succ depth =>
      have hEntries := entryValues_source_iff depth entries
      rw [source, value_object_succ, Readable, Nat.add_sub_cancel, ← hEntries,
        Option.map_eq_some_iff]
      constructor
      · rintro ⟨es, hRead, hEq⟩
        have hOrdered : Keyed.Ordered entries := by
          rw [← Json.object.inj hEq]
          exact Keyed.ordered_ofList es
        have hSame := Keyed.ofList_of_keys (keys_entryValues hRead) hOrdered
        have hEntry : es = entries := hSame.symm.trans (Json.object.inj hEq)
        exact ⟨Nat.succ_pos _, hOrdered, hEntry ▸ hRead⟩
      · rintro ⟨-, hOrdered, hRead⟩
        exact ⟨entries, hRead, congrArg Json.object (Keyed.ofList_of_ordered hOrdered)⟩

theorem itemValues_source_iff (depth : Nat) : (xs : List Json) →
    (Source.itemValues depth (itemSources xs) = some xs ↔ ItemsReadable depth xs)
  | [] => by simp [itemSources, Source.itemValues, ItemsReadable]
  | x :: xs => by
    have hHead := value_source_iff depth x
    have hTail := itemValues_source_iff depth xs
    rw [itemSources, itemValues_cons, ItemsReadable, ← hHead, ← hTail]
    simp [Option.bind_eq_some_iff]

theorem entryValues_source_iff (depth : Nat) : (es : List (String × Json)) →
    (Source.entryValues depth (entrySources es) = some es ↔ EntriesReadable depth es)
  | [] => by simp [entrySources, Source.entryValues, EntriesReadable]
  | (k, x) :: es => by
    have hHead := value_source_iff depth x
    have hTail := entryValues_source_iff depth es
    rw [entrySources, entryValues_cons, EntriesReadable, ← hHead, ← hTail]
    simp [Option.bind_eq_some_iff]

end

/-! ### Records -/

theorem decodeKeys_entrySources (es : List (String × Json)) :
    Source.decodeKeys (entrySources es) = some (es.map fun e => (e.1, e.2.source)) := by
  induction es with
  | nil => rfl
  | cons e es ih =>
    obtain ⟨k, x⟩ := e
    rw [entrySources, Source.decodeKeys, decodeText_piecesOf, ih]
    rfl

/-- Of distinct keys, the entry under a key is the only one. -/
theorem single_of_nodup {es : List (String × Json)} (h : (es.map Prod.fst).Nodup) (name : String) :
    Source.single (es.map fun e => (e.1, e.2.source)) name =
      some ((Keyed.get? es name).map source) := by
  have hNone : ∀ {l : List (String × Json)}, name ∉ l.map Prod.fst →
      (l.map fun e => (e.1, e.2.source)).filter (fun e => e.1 == name) = [] := by
    intro l hl
    refine List.filter_eq_nil_iff.mpr fun e he => ?_
    obtain ⟨d, hd, rfl⟩ := List.mem_map.mp he
    intro hKey
    exact hl (List.mem_map.mpr ⟨d, hd, eq_of_beq hKey⟩)
  induction es with
  | nil => rfl
  | cons e es ih =>
    obtain ⟨k, x⟩ := e
    obtain ⟨hNew, hRest⟩ := List.nodup_cons.mp h
    rw [Keyed.get?_cons]
    split
    · rename_i hKey
      subst hKey
      simp only [Source.single, List.map_cons, List.filter_cons, beq_self_eq_true, if_true,
        hNone hNew, Option.map_some]
    · rename_i hKey
      have hOther : (k == name) = false := beq_false_of_ne hKey
      rw [← ih hRest]
      simp only [Source.single, List.map_cons, List.filter_cons, hOther, Bool.false_eq_true,
        if_false]

/-- **The fields of a record are found under their names.** -/
theorem fields_source {es : List (String × Json)} (h : (es.map Prod.fst).Nodup)
    (names : List String) : Source.fields names (Json.object es).source =
      some (names.map fun name => (Keyed.get? es name).map source) := by
  rw [source, Source.fields, decodeKeys_entrySources]
  show names.mapM (Source.single (es.map fun e => (e.1, e.2.source))) = _
  induction names with
  | nil => rfl
  | cons name names ih =>
    rw [List.mapM_cons, single_of_nodup h, ih]
    rfl

theorem text_source (s : String) : (Json.string s).source.text = some s :=
  decodeText_piecesOf s

theorem itemSources_eq_map (xs : List Json) : itemSources xs = xs.map source := by
  induction xs with
  | nil => rfl
  | cons x xs ih => rw [itemSources, ih, List.map_cons]

end DesignSystem.Json
