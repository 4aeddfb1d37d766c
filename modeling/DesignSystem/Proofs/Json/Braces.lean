import DesignSystem.Proofs.Json.Spelling
/-!
# Braces in the texts of documents

A brace in the compact text of a document comes from an object, a key or a string and from nothing
else (`any_isBrace_compactChars`), and only objects begin with one (`eq_object_of_head?`). What
stands between the outer braces of an object with entries has no brace exactly if the object is flat
(`exists_braced_iff_isFlat`).
-/

namespace DesignSystem.Json

/-- An opening or a closing brace. -/
def isBrace (c : Char) : Bool :=
  c == '\x7b' || c == '\x7d'

theorem isBrace_iff {c : Char} : isBrace c = true ↔ c = '\x7b' ∨ c = '\x7d' := by
  rw [isBrace, Bool.or_eq_true, beq_iff_eq, beq_iff_eq]

mutual

/-- Whether the text of a document holds a brace. -/
def hasBrace : Json → Bool
  | .null | .bool _ | .number _ => false
  | .string s => s.toList.any isBrace
  | .array items => itemsHaveBrace items
  | .object _ => true

/-- Whether the text of one of the items holds a brace. -/
def itemsHaveBrace : List Json → Bool
  | [] => false
  | x :: xs => hasBrace x || itemsHaveBrace xs

/-- Whether one of the keys or the text of one of the values holds a brace. -/
def entriesHaveBrace : List (String × Json) → Bool
  | [] => false
  | (key, x) :: es => key.toList.any isBrace || hasBrace x || entriesHaveBrace es

end

/-- An object with entries in which there is no other object and no brace in a key or a string. -/
def isFlat : Json → Bool
  | .object entries => !entries.isEmpty && !entriesHaveBrace entries
  | .null | .bool _ | .number _ | .string _ | .array _ => false

theorem isBrace_hexDigit : ∀ n < 16, isBrace (hexDigit n) = false := by
  decide

/-- A character is written with a brace only if it is one. -/
theorem any_isBrace_escape (c : Char) : (escape c).any isBrace = isBrace c := by
  unfold escape
  -- the characters with an escape of their own
  iterate 7
    split
    · subst_vars
      rfl
  split
  · rename_i hControl
    have hHigh := isBrace_hexDigit (c.toNat / 16) (by omega)
    have hLow := isBrace_hexDigit (c.toNat % 16) (by omega)
    have hNone : isBrace c = false := by
      rw [Bool.eq_false_iff, Ne, isBrace_iff]
      rintro (rfl | rfl)
      · exact absurd hControl (by decide)
      · exact absurd hControl (by decide)
    simp only [List.any_cons, List.any_nil, hHigh, hLow, hNone]
    rfl
  · simp only [List.any_cons, List.any_nil, Bool.or_false]

theorem any_isBrace_quote (s : String) : (quote s).any isBrace = s.toList.any isBrace := by
  have hQuote : isBrace '"' = false := rfl
  simp only [quote, List.any_cons, List.any_append, List.any_flatMap, List.any_nil, hQuote,
    any_isBrace_escape, Bool.false_or, Bool.or_false]

theorem isBrace_of_isNumeric {c : Char} (h : IsNumeric c) : isBrace c = false := by
  have hWord := (inWord_of_isNumeric h).2.2
  rw [Bool.eq_false_iff, Ne, isBrace_iff]
  rintro (rfl | rfl)
  · cases hWord
  · cases hWord

theorem any_isBrace_number (n : Number) : n.write.toList.any isBrace = false := by
  rw [List.any_eq_false]
  intro c hc
  rw [isBrace_of_isNumeric ((numeral_write n).mem hc)]
  exact Bool.false_ne_true

mutual

/-- **Braces come from objects, keys and strings alone.** -/
theorem any_isBrace_compactChars : (j : Json) → j.compactChars.any isBrace = j.hasBrace
  | .null => rfl
  | .bool true => rfl
  | .bool false => rfl
  | .number n => any_isBrace_number n
  | .string s => any_isBrace_quote s
  | .array [] => rfl
  | .array (x :: xs) => by
    have hOpen : isBrace '[' = false := rfl
    have hClose : isBrace ']' = false := rfl
    simp only [compactChars, hasBrace, itemsHaveBrace, List.any_cons, List.any_append,
      List.any_nil, hOpen, hClose, any_isBrace_compactChars x, any_isBrace_compactItems xs,
      Bool.false_or, Bool.or_false]
  | .object [] => rfl
  | .object ((key, x) :: es) => by
    have hOpen : isBrace '\x7b' = true := rfl
    rw [compactChars, List.any_cons, hOpen, Bool.true_or, hasBrace]

theorem any_isBrace_compactItems :
    (xs : List Json) → (compactItems xs).any isBrace = itemsHaveBrace xs
  | [] => rfl
  | x :: xs => by
    have hComma : isBrace ',' = false := rfl
    simp only [compactItems, itemsHaveBrace, List.any_cons, List.any_append, hComma,
      any_isBrace_compactChars x, any_isBrace_compactItems xs, Bool.false_or]

end

/-- What stands between the braces of an object with entries. -/
def entryChars (e : String × Json) (es : List (String × Json)) : List Char :=
  quote e.1 ++ ':' :: (compactChars e.2 ++ compactEntries es)

theorem compactChars_object (e : String × Json) (es : List (String × Json)) :
    (Json.object (e :: es)).compactChars = '\x7b' :: (entryChars e es ++ ['\x7d']) := by
  simp only [compactChars, entryChars, List.append_assoc, List.cons_append]

theorem entryChars_cons (e d : String × Json) (es : List (String × Json)) :
    entryChars e (d :: es) = quote e.1 ++ ':' :: (compactChars e.2 ++ ',' :: entryChars d es) :=
  rfl

theorem any_isBrace_entryChars (e : String × Json) (es : List (String × Json)) :
    (entryChars e es).any isBrace = entriesHaveBrace (e :: es) := by
  have hColon : isBrace ':' = false := rfl
  have hComma : isBrace ',' = false := rfl
  induction es generalizing e with
  | nil =>
    simp only [entryChars, compactEntries, entriesHaveBrace, List.any_cons, List.any_append,
      List.any_nil, hColon, any_isBrace_quote, any_isBrace_compactChars, Bool.false_or,
      Bool.or_false]
  | cons d es ih =>
    rw [entryChars_cons, List.any_append, List.any_cons, hColon, Bool.false_or, List.any_append,
      List.any_cons, hComma, Bool.false_or, ih d, any_isBrace_quote, any_isBrace_compactChars,
      ← Bool.or_assoc]
    rfl

/-- Only objects begin with a brace. -/
theorem eq_object_of_head? {j : Json} (h : j.compactChars.head? = some '\x7b') :
    ∃ entries, j = .object entries := by
  cases j with
  | null => exact absurd h (by decide)
  | bool b =>
    cases b with
    | true => exact absurd h (by decide)
    | false => exact absurd h (by decide)
  | number n =>
    have hBrace := isBrace_of_isNumeric ((numeral_write n).mem (List.mem_of_mem_head? h))
    cases hBrace
  | string s =>
    have hQuote := Option.some.inj h
    exact absurd hQuote (by decide)
  | array items =>
    cases items with
    | nil => exact absurd h (by decide)
    | cons x xs =>
      have hBracket := Option.some.inj h
      exact absurd hBracket (by decide)
  | object entries => exact ⟨entries, rfl⟩

/-- **Braces stand around a text without braces exactly if the document is flat.** -/
theorem exists_braced_iff_isFlat (j : Json) : (∃ inner, j.compactChars =
    '\x7b' :: (inner ++ ['\x7d']) ∧ inner ≠ [] ∧ inner.any isBrace = false) ↔
      j.isFlat = true := by
  cases j with
  | null | bool b | number n | string s | array items =>
    refine iff_of_false ?_ Bool.false_ne_true
    rintro ⟨inner, hText, -⟩
    obtain ⟨entries, hObject⟩ := eq_object_of_head? (congrArg List.head? hText)
    cases hObject
  | object entries =>
    cases entries with
    | nil =>
      refine iff_of_false ?_ Bool.false_ne_true
      rintro ⟨inner, hText, hNe, -⟩
      have hEnd : [] ++ ['\x7d'] = inner ++ ['\x7d'] := (List.cons.inj hText).2
      exact hNe (List.append_cancel_right hEnd).symm
    | cons e es =>
      rw [compactChars_object, isFlat, List.isEmpty_cons, Bool.not_false, Bool.true_and,
        Bool.not_eq_true', ← any_isBrace_entryChars]
      constructor
      · rintro ⟨inner, hText, -, hNone⟩
        rwa [List.append_cancel_right (List.cons.inj hText).2]
      · intro hNone
        exact ⟨_, rfl, List.cons_ne_nil _ _, hNone⟩

end DesignSystem.Json
