import DesignSystem.Proofs.Json.Numeral
/-!
# Written documents are read as they are

`Json/Printer.lean` writes a document in two layouts and `Json/Source.lean` reads a text as a
written document. This file joins them: in either layout, the text of `j` is read as `j.source`,

    Source.ofString j.compact = some j.source        (ofString_compact)
    Source.ofString j.pretty  = some j.source        (ofString_pretty)

whatever `j` is. What `j.source` denotes is another matter, which is left to `Json/Readable.lean`.

The two passes of the reader are treated one after the other, each with whatever follows kept open.
`Spells cs ts` says that the pass over the characters goes through `cs` and finds `ts`; both layouts
spell `j.lexemes`. The machine then takes `j.lexemes` from the state that expects a value to the one
in which `j.source` is complete.
-/

namespace DesignSystem.Json

/-! ### Strings -/

/-- The piece that a character of a string is written as: all control characters without an escape
of their own become units. -/
def pieceOf (c : Char) : Piece :=
  if c = '\n' ∨ c = '\r' ∨ c = '\t' ∨ c = '\x08' ∨ c = '\x0c' then .char c
  else if c.toNat < 0x20 then .unit c.toNat
  else .char c

/-- The pieces of a string as written. -/
def piecesOf (s : String) : List Piece :=
  s.toList.map pieceOf

theorem hexUnit?_control {n : Nat} (h : n < 32) :
    hexUnit? '0' '0' (hexDigit (n / 16)) (hexDigit (n % 16)) = some n := by
  have hAll : ∀ m : Fin 32,
      hexUnit? '0' '0' (hexDigit (m.val / 16)) (hexDigit (m.val % 16)) = some m.val := by decide
  exact hAll ⟨n, h⟩

/-- Inside a string, an escaped character is read as its piece. -/
theorem tokensFrom_escape (c : Char) (rest : List Char) (pieces : List Piece)
    (found : List Token) : tokensFrom (escape c ++ rest) (.inside pieces) found =
      tokensFrom rest (.inside (pieceOf c :: pieces)) found := by
  unfold escape
  -- the characters with an escape of their own
  iterate 7
    split
    · subst_vars
      rfl
  rename_i hQuote hBackslash hLine hReturn hTab hBack hForm
  have hNamed : ¬(c = '\n' ∨ c = '\r' ∨ c = '\t' ∨ c = '\x08' ∨ c = '\x0c') := by
    simp [hLine, hReturn, hTab, hBack, hForm]
  split
  · rename_i hControl
    rw [pieceOf, if_neg hNamed, if_pos hControl]
    simp only [List.cons_append, List.nil_append, tokensFrom, hexUnit?_control hControl]
  · rename_i hPlain
    rw [pieceOf, if_neg hNamed, if_neg hPlain, List.singleton_append]
    rw [tokensFrom, if_neg hQuote, if_neg (by simp [hBackslash, hPlain])]
    · intro a b c' d cs hEq
      exact absurd hEq hBackslash
    · intro c' cs hEq
      exact absurd hEq hBackslash

theorem tokensFrom_escapes (cs rest : List Char) (pieces : List Piece) (found : List Token) :
    tokensFrom (cs.flatMap escape ++ '"' :: rest) (.inside pieces) found =
      tokensFrom rest (.outside []) (.string (pieces.reverse ++ cs.map pieceOf) :: found) := by
  induction cs generalizing pieces with
  | nil => rw [List.flatMap_nil, List.nil_append, List.map_nil, List.append_nil]; rfl
  | cons c cs ih =>
    rw [List.flatMap_cons, List.append_assoc, tokensFrom_escape, ih, List.reverse_cons,
      List.append_assoc, List.map_cons]
    rfl

/-! ### Documents as tokens -/

/-- The parts of a number's text. -/
def Number.text (n : Number) : NumberText :=
  (NumberText.ofChars n.write.toList).getD ⟨false, [], none, none⟩

theorem Number.ofChars_write (n : Number) : NumberText.ofChars n.write.toList = some n.text := by
  obtain ⟨t, ht⟩ := (numeral_write n).ofChars
  rw [text, ht, Option.getD_some]

mutual

/-- The tokens of a document. -/
def lexemes : Json → List Token
  | .null => [.scalar .null]
  | .bool b => [.scalar (.bool b)]
  | .number n => [.scalar (.number n.text)]
  | .string s => [.string (piecesOf s)]
  | .array [] => [.openArray, .closeArray]
  | .array (x :: xs) => .openArray :: (x.lexemes ++ (itemLexemes xs ++ [.closeArray]))
  | .object [] => [.openObject, .closeObject]
  | .object ((k, x) :: es) =>
    .openObject :: .string (piecesOf k) :: .colon ::
      (x.lexemes ++ (entryLexemes es ++ [.closeObject]))

/-- The tokens of the items after the first, each after a comma. -/
def itemLexemes : List Json → List Token
  | [] => []
  | x :: xs => .comma :: (x.lexemes ++ itemLexemes xs)

/-- The tokens of the entries after the first, each after a comma. -/
def entryLexemes : List (String × Json) → List Token
  | [] => []
  | (k, x) :: es => .comma :: .string (piecesOf k) :: .colon :: (x.lexemes ++ entryLexemes es)

end

/-- What follows ends the word in front of it. -/
def Breaks (rest : List Char) : Prop :=
  ∀ word found, tokensFrom rest (.outside word) found =
    (endWord word found).bind fun found => tokensFrom rest (.outside []) found

/-- Between tokens and in front of something that ends words, the text is read as the tokens. -/
def Spells (cs : List Char) (ts : List Token) : Prop :=
  ∀ rest, Breaks rest → ∀ found, tokensFrom (cs ++ rest) (.outside []) found =
    tokensFrom rest (.outside []) (ts.reverse ++ found)

/-- The text ends the word in front of it if what follows does. -/
def Opens (cs : List Char) : Prop :=
  ∀ rest, Breaks rest → Breaks (cs ++ rest)

theorem breaks_nil : Breaks [] := by
  intro word found
  cases hWord : endWord word found with
  | none => exact hWord
  | some ts => exact hWord

theorem breaks_gap {c : Char} (h : isGap c = true) (rest : List Char) : Breaks (c :: rest) := by
  intro word found
  simp only [tokensFrom, if_pos h, endWord, Option.bind_some]

theorem breaks_punctuation {c : Char} {t : Token} (hGap : isGap c = false) (hQuote : c ≠ '"')
    (h : punctuation? c = some t) (rest : List Char) : Breaks (c :: rest) := by
  intro word found
  simp only [tokensFrom, hGap, Bool.false_eq_true, if_false, if_neg hQuote, h, endWord,
    Option.bind_some]

theorem opens_nil : Opens [] :=
  fun _ h => h

theorem opens_gap {c : Char} (h : isGap c = true) (cs : List Char) : Opens (c :: cs) :=
  fun rest _ => breaks_gap h (cs ++ rest)

theorem opens_punctuation {c : Char} {t : Token} (hGap : isGap c = false) (hQuote : c ≠ '"')
    (h : punctuation? c = some t) (cs : List Char) : Opens (c :: cs) :=
  fun rest _ => breaks_punctuation hGap hQuote h (cs ++ rest)

theorem spells_nil : Spells [] [] :=
  fun _ _ _ => rfl

/-- **Texts are spelled one after the other** if the second ends the words of the first. -/
theorem Spells.append {cs cs' : List Char} {ts ts' : List Token} (h : Spells cs ts)
    (h' : Spells cs' ts') (hOpens : Opens cs') : Spells (cs ++ cs') (ts ++ ts') := by
  intro rest hRest found
  rw [List.append_assoc, h _ (hOpens rest hRest), h' rest hRest, List.reverse_append,
    List.append_assoc]

theorem Spells.gap {c : Char} (hGap : isGap c = true) {cs : List Char} {ts : List Token}
    (h : Spells cs ts) : Spells (c :: cs) ts := by
  intro rest hRest found
  rw [← h rest hRest found, List.cons_append]
  simp only [tokensFrom, if_pos hGap, endWord, Option.bind_some]

theorem Spells.punctuation {c : Char} {t : Token} (hGap : isGap c = false) (hQuote : c ≠ '"')
    (hToken : punctuation? c = some t) {cs : List Char} {ts : List Token} (h : Spells cs ts) :
    Spells (c :: cs) (t :: ts) := by
  intro rest hRest found
  rw [List.reverse_cons, List.append_assoc, List.singleton_append, ← h rest hRest (t :: found),
    List.cons_append]
  simp only [tokensFrom, hGap, Bool.false_eq_true, if_false, if_neg hQuote, hToken, endWord,
    Option.bind_some]

theorem Spells.quote {cs : List Char} {ts : List Token} (h : Spells cs ts) (s : String) :
    Spells (quote s ++ cs) (.string (piecesOf s) :: ts) := by
  intro rest hRest found
  have hText : Json.quote s ++ cs ++ rest =
      '"' :: (s.toList.flatMap escape ++ '"' :: (cs ++ rest)) := by
    simp [Json.quote]
  rw [hText, List.reverse_cons, List.append_assoc, List.singleton_append,
    ← h rest hRest (.string (piecesOf s) :: found)]
  show tokensFrom (s.toList.flatMap escape ++ '"' :: (cs ++ rest)) (.inside []) found = _
  rw [tokensFrom_escapes]
  rfl

theorem spells_quote (s : String) : Spells (quote s) [.string (piecesOf s)] := by
  have h := spells_nil.quote s
  rwa [List.append_nil] at h

/-! ### Words -/

/-- The characters that words are made of. -/
def InWord (c : Char) : Prop :=
  isGap c = false ∧ c ≠ '"' ∧ punctuation? c = none

instance (c : Char) : Decidable (InWord c) :=
  inferInstanceAs (Decidable (_ ∧ _ ∧ _ = none))

theorem inWord_of_all {word : List Char} (h : (word.all fun c => decide (InWord c)) = true) :
    ∀ c ∈ word, InWord c :=
  fun c hc => of_decide_eq_true (List.all_eq_true.mp h c hc)

/-- A word is read as its scalar. -/
theorem spells_word {word : List Char} (hNe : word ≠ []) (hWord : ∀ c ∈ word, InWord c)
    {s : Source} (hScalar : scalar? word = some s) : Spells word [.scalar s] := by
  have hCollect : ∀ (cs before rest : List Char) (found : List Token), (∀ c ∈ cs, InWord c) →
      tokensFrom (cs ++ rest) (.outside before) found =
        tokensFrom rest (.outside (cs.reverse ++ before)) found := by
    intro cs
    induction cs with
    | nil => intro before rest found _; rfl
    | cons c cs ih =>
      intro before rest found hcs
      obtain ⟨hGap, hQuote, hPunctuation⟩ := hcs c List.mem_cons_self
      rw [List.cons_append, List.reverse_cons, List.append_assoc, List.singleton_append,
        ← ih (c :: before) rest found fun d hd => hcs d (List.mem_cons_of_mem _ hd)]
      simp only [tokensFrom, hGap, Bool.false_eq_true, if_false, if_neg hQuote, hPunctuation]
  intro rest hRest found
  have hEnd : endWord word.reverse found = some (.scalar s :: found) := by
    obtain ⟨c, cs, hCons⟩ := List.exists_cons_of_ne_nil (List.reverse_ne_nil_iff.mpr hNe)
    have hReverse : (c :: cs).reverse = word := by rw [← hCons, List.reverse_reverse]
    rw [hCons, endWord, hReverse, hScalar]
    · rfl
    · nofun
  rw [hCollect word [] rest found hWord, List.append_nil, hRest, hEnd]
  rfl

theorem inWord_of_isNumeric {c : Char} (h : IsNumeric c) : InWord c := by
  rcases h with hDigit | rfl | rfl | rfl | rfl
  · have hRange := toNat_of_isDigit hDigit
    have hNe : ∀ d : Char, d.toNat < 48 ∨ 57 < d.toNat → c ≠ d := by
      intro d hd hEq
      rw [hEq] at hRange
      omega
    refine ⟨?_, hNe _ (by decide), ?_⟩
    · simp [isGap, hNe ' ' (by decide), hNe '\t' (by decide), hNe '\n' (by decide),
        hNe '\r' (by decide)]
    · simp [punctuation?, hNe '[' (by decide), hNe ']' (by decide), hNe '\x7b' (by decide),
        hNe '\x7d' (by decide), hNe ',' (by decide), hNe ':' (by decide)]
  all_goals decide

theorem spells_number (n : Number) : Spells n.write.toList [.scalar (.number n.text)] := by
  have hNumeral := numeral_write n
  refine spells_word hNumeral.ne_nil (fun c hc => inWord_of_isNumeric (hNumeral.mem hc)) ?_
  have hNotWord : ∀ word : List Char, (∃ c ∈ word, ¬IsNumeric c) → n.write.toList ≠ word := by
    rintro word ⟨c, hc, hNot⟩ hEq
    exact hNot (hNumeral.mem (hEq ▸ hc))
  have hLetter : ∀ c : Char, c = 'n' ∨ c = 't' ∨ c = 'f' → ¬IsNumeric c := by
    rintro c (rfl | rfl | rfl) <;> simp [IsNumeric]
  rw [scalar?, if_neg (hNotWord _ ⟨'n', by decide, hLetter _ (.inl rfl)⟩),
    if_neg (hNotWord _ ⟨'t', by decide, hLetter _ (.inr (.inl rfl))⟩),
    if_neg (hNotWord _ ⟨'f', by decide, hLetter _ (.inr (.inr rfl))⟩), n.ofChars_write]
  rfl

/-! ### The two layouts -/

theorem spells_null : Spells "null".toList [.scalar .null] :=
  spells_word (by decide) (inWord_of_all rfl) rfl

theorem spells_true : Spells "true".toList [.scalar (.bool true)] :=
  spells_word (by decide) (inWord_of_all rfl) rfl

theorem spells_false : Spells "false".toList [.scalar (.bool false)] :=
  spells_word (by decide) (inWord_of_all rfl) rfl

theorem Spells.openArray {cs : List Char} {ts : List Token} (h : Spells cs ts) :
    Spells ('[' :: cs) (.openArray :: ts) :=
  h.punctuation rfl (by decide) rfl

theorem Spells.openObject {cs : List Char} {ts : List Token} (h : Spells cs ts) :
    Spells ('\x7b' :: cs) (.openObject :: ts) :=
  h.punctuation rfl (by decide) rfl

theorem Spells.comma {cs : List Char} {ts : List Token} (h : Spells cs ts) :
    Spells (',' :: cs) (.comma :: ts) :=
  h.punctuation rfl (by decide) rfl

theorem Spells.colon {cs : List Char} {ts : List Token} (h : Spells cs ts) :
    Spells (':' :: cs) (.colon :: ts) :=
  h.punctuation rfl (by decide) rfl

theorem spells_closeArray : Spells [']'] [.closeArray] :=
  spells_nil.punctuation rfl (by decide) rfl

theorem spells_closeObject : Spells ['\x7d'] [.closeObject] :=
  spells_nil.punctuation rfl (by decide) rfl

theorem opens_closeArray : Opens [']'] :=
  opens_punctuation rfl (by decide) rfl _

theorem opens_closeObject : Opens ['\x7d'] :=
  opens_punctuation rfl (by decide) rfl _

theorem opens_comma (cs : List Char) : Opens (',' :: cs) :=
  opens_punctuation rfl (by decide) rfl _

theorem Opens.append {cs ds : List Char} (h : Opens cs) (hds : Opens ds) : Opens (cs ++ ds) := by
  intro rest hRest
  rw [List.append_assoc]
  exact h _ (hds rest hRest)

theorem opens_compactItems (xs : List Json) : Opens (compactItems xs) := by
  cases xs with
  | nil => exact opens_nil
  | cons x xs => exact opens_comma _

theorem opens_compactEntries (es : List (String × Json)) : Opens (compactEntries es) := by
  cases es with
  | nil => exact opens_nil
  | cons e es => exact opens_comma _

mutual

theorem spells_compact : (j : Json) → Spells j.compactChars j.lexemes
  | .null => spells_null
  | .bool true => spells_true
  | .bool false => spells_false
  | .number n => spells_number n
  | .string s => spells_quote s
  | .array [] => spells_closeArray.openArray
  | .array (x :: xs) => by
    have hTail := (spells_compactItems xs).append spells_closeArray opens_closeArray
    have hOpens := (opens_compactItems xs).append opens_closeArray
    have hItems := (spells_compact x).append hTail hOpens
    rw [← List.append_assoc] at hItems
    exact hItems.openArray
  | .object [] => spells_closeObject.openObject
  | .object ((k, x) :: es) => by
    have hTail := (spells_compactEntries es).append spells_closeObject opens_closeObject
    have hOpens := (opens_compactEntries es).append opens_closeObject
    have hEntries := (spells_compact x).append hTail hOpens
    rw [← List.append_assoc] at hEntries
    exact (hEntries.colon.quote k).openObject

theorem spells_compactItems : (xs : List Json) → Spells (compactItems xs) (itemLexemes xs)
  | [] => spells_nil
  | x :: xs =>
    ((spells_compact x).append (spells_compactItems xs) (opens_compactItems xs)).comma

theorem spells_compactEntries :
    (es : List (String × Json)) → Spells (compactEntries es) (entryLexemes es)
  | [] => spells_nil
  | (k, x) :: es =>
    (((spells_compact x).append (spells_compactEntries es)
      (opens_compactEntries es)).colon.quote k).comma

end

theorem Spells.newLine {cs : List Char} {ts : List Token} (h : Spells cs ts) (level : Nat) :
    Spells (newLine level ++ cs) ts := by
  have hBlanks : ∀ n, Spells (List.replicate n ' ' ++ cs) ts := by
    intro n
    induction n with
    | zero => exact h
    | succ n ih => exact ih.gap rfl
  exact (hBlanks (2 * level)).gap rfl

theorem Spells.blank {cs : List Char} {ts : List Token} (h : Spells cs ts) :
    Spells (' ' :: cs) ts :=
  h.gap rfl

theorem opens_newLine (level : Nat) (cs : List Char) : Opens (newLine level ++ cs) :=
  opens_gap rfl _

theorem opens_prettyItems (level : Nat) (xs : List Json) : Opens (prettyItems level xs) := by
  cases xs with
  | nil => exact opens_nil
  | cons x xs => exact opens_comma _

theorem opens_prettyEntries (level : Nat) (es : List (String × Json)) :
    Opens (prettyEntries level es) := by
  cases es with
  | nil => exact opens_nil
  | cons e es => exact opens_comma _

mutual

theorem spells_pretty (level : Nat) : (j : Json) → Spells (prettyChars level j) j.lexemes
  | .null => spells_null
  | .bool true => spells_true
  | .bool false => spells_false
  | .number n => spells_number n
  | .string s => spells_quote s
  | .array [] => spells_closeArray.openArray
  | .array (x :: xs) => by
    show Spells ('[' :: (newLine (level + 1) ++ prettyChars (level + 1) x ++
      prettyItems (level + 1) xs ++ newLine level ++ [']'])) _
    simp only [List.append_assoc]
    have hClose := opens_newLine level [']']
    have hTail := (spells_prettyItems (level + 1) xs).append (spells_closeArray.newLine level)
      hClose
    have hOpens := (opens_prettyItems (level + 1) xs).append hClose
    exact (((spells_pretty (level + 1) x).append hTail hOpens).newLine (level + 1)).openArray
  | .object [] => spells_closeObject.openObject
  | .object ((k, x) :: es) => by
    show Spells ('\x7b' :: (newLine (level + 1) ++ quote k ++ ':' :: ' ' ::
      (prettyChars (level + 1) x ++ prettyEntries (level + 1) es ++ newLine level ++ ['\x7d']))) _
    simp only [List.append_assoc]
    have hClose := opens_newLine level ['\x7d']
    have hTail := (spells_prettyEntries (level + 1) es).append
      (spells_closeObject.newLine level) hClose
    have hOpens := (opens_prettyEntries (level + 1) es).append hClose
    have hValue := ((spells_pretty (level + 1) x).append hTail hOpens).blank
    exact ((hValue.colon.quote k).newLine (level + 1)).openObject

theorem spells_prettyItems (level : Nat) :
    (xs : List Json) → Spells (prettyItems level xs) (itemLexemes xs)
  | [] => spells_nil
  | x :: xs => by
    show Spells (',' :: (newLine level ++ prettyChars level x ++ prettyItems level xs)) _
    rw [List.append_assoc]
    exact (((spells_pretty level x).append (spells_prettyItems level xs)
      (opens_prettyItems level xs)).newLine level).comma

theorem spells_prettyEntries (level : Nat) :
    (es : List (String × Json)) → Spells (prettyEntries level es) (entryLexemes es)
  | [] => spells_nil
  | (k, x) :: es => by
    show Spells (',' :: (newLine level ++ quote k ++
      ':' :: ' ' :: (prettyChars level x ++ prettyEntries level es))) _
    rw [List.append_assoc]
    have hValue := ((spells_pretty level x).append (spells_prettyEntries level es)
      (opens_prettyEntries level es)).blank
    exact ((hValue.colon.quote k).newLine level).comma

end

/-! ### Putting the tokens together -/

mutual

/-- The document as it is written. -/
def source : Json → Source
  | .null => .null
  | .bool b => .bool b
  | .number n => .number n.text
  | .string s => .string (piecesOf s)
  | .array items => .array (itemSources items)
  | .object entries => .object (entrySources entries)

/-- The items of an array as they are written. -/
def itemSources : List Json → List Source
  | [] => []
  | x :: xs => x.source :: itemSources xs

/-- The entries of an object as they are written. -/
def entrySources : List (String × Json) → List (List Piece × Source)
  | [] => []
  | (k, x) :: es => (piecesOf k, x.source) :: entrySources es

end

/-- No document begins with the end of an array. -/
theorem step_firstItem (j : Json) (rest : List Token) (stack : List Open) :
    (j.lexemes ++ rest).foldlM step (.firstItem stack) =
      (j.lexemes ++ rest).foldlM step (.value (.array [] :: stack)) := by
  cases j with
  | null => rfl
  | bool b => rfl
  | number n => rfl
  | string s => rfl
  | array items => cases items <;> rfl
  | object entries => cases entries <;> rfl

mutual

/-- **The machine completes a document.** -/
theorem steps_lexemes : (j : Json) → (rest : List Token) → (stack : List Open) →
    (j.lexemes ++ rest).foldlM step (.value stack) = rest.foldlM step (.complete j.source stack)
  | .null, _, _ => rfl
  | .bool _, _, _ => rfl
  | .number _, _, _ => rfl
  | .string _, _, _ => rfl
  | .array [], _, _ => rfl
  | .array (x :: xs), rest, stack => by
    show ((x.lexemes ++ (itemLexemes xs ++ [Token.closeArray])) ++ rest).foldlM step
      (.firstItem stack) = _
    rw [List.append_assoc, step_firstItem, steps_lexemes x, List.append_assoc,
      steps_itemLexemes xs x.source []]
    rfl
  | .object [], _, _ => rfl
  | .object ((k, x) :: es), rest, stack => by
    show ((x.lexemes ++ (entryLexemes es ++ [Token.closeObject])) ++ rest).foldlM step
      (.value (.object [] (piecesOf k) :: stack)) = _
    rw [List.append_assoc, steps_lexemes x, List.append_assoc,
      steps_entryLexemes es (piecesOf k) x.source []]
    rfl

theorem steps_itemLexemes : (xs : List Json) → (v : Source) → (items : List Source) →
    (rest : List Token) → (stack : List Open) →
    (itemLexemes xs ++ ([Token.closeArray] ++ rest)).foldlM step
        (.complete v (.array items :: stack)) =
      rest.foldlM step (.complete (.array ((v :: items).reverse ++ itemSources xs)) stack)
  | [], v, items, rest, stack => by
    rw [itemSources, List.append_nil]
    rfl
  | x :: xs, v, items, rest, stack => by
    show ((x.lexemes ++ itemLexemes xs) ++ ([Token.closeArray] ++ rest)).foldlM step
      (.value (.array (v :: items) :: stack)) = _
    rw [List.append_assoc, steps_lexemes x, steps_itemLexemes xs x.source (v :: items),
      itemSources, List.reverse_cons, List.append_assoc]
    rfl

theorem steps_entryLexemes : (es : List (String × Json)) → (k : List Piece) → (v : Source) →
    (entries : List (List Piece × Source)) → (rest : List Token) → (stack : List Open) →
    (entryLexemes es ++ ([Token.closeObject] ++ rest)).foldlM step
        (.complete v (.object entries k :: stack)) =
      rest.foldlM step
        (.complete (.object (((k, v) :: entries).reverse ++ entrySources es)) stack)
  | [], k, v, entries, rest, stack => by
    rw [entrySources, List.append_nil]
    rfl
  | (k', x) :: es, k, v, entries, rest, stack => by
    show ((x.lexemes ++ entryLexemes es) ++ ([Token.closeObject] ++ rest)).foldlM step
      (.value (.object ((k, v) :: entries) (piecesOf k') :: stack)) = _
    rw [List.append_assoc, steps_lexemes x,
      steps_entryLexemes es (piecesOf k') x.source ((k, v) :: entries), entrySources,
      List.reverse_cons, List.append_assoc]
    rfl

end

/-- A text that spells a document is read as that document. -/
theorem ofChars_of_spells {cs : List Char} {j : Json} (h : Spells cs j.lexemes) :
    Source.ofChars cs = some j.source := by
  have hTokens : tokens cs = some j.lexemes := by
    have hAll := h [] breaks_nil []
    rw [List.append_nil, List.append_nil] at hAll
    have hEnd : tokensFrom [] (.outside []) j.lexemes.reverse = some j.lexemes.reverse := rfl
    rw [tokens, hAll, hEnd, Option.map_some, List.reverse_reverse]
  have hSteps := steps_lexemes j [] []
  rw [List.append_nil] at hSteps
  rw [Source.ofChars, hTokens, Option.bind_some, hSteps]
  rfl

/-- **The compact text of a document is read as the document was written.** -/
theorem ofString_compact (j : Json) : Source.ofString j.compact = some j.source := by
  rw [Source.ofString, compact, String.toList_ofList]
  exact ofChars_of_spells (spells_compact j)

/-- **The indented text of a document is read as the document was written.** -/
theorem ofString_pretty (j : Json) : Source.ofString j.pretty = some j.source := by
  rw [Source.ofString, pretty, String.toList_ofList]
  exact ofChars_of_spells (spells_pretty 0 j)

end DesignSystem.Json
