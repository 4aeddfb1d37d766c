import DesignSystem.Component.Description
import DesignSystem.Proofs.Text.Cut
/-!
# Kebab case is a normal form

A name is read as a list of words, and both its forms are written from these words. Files,
attributes and events are named by the one form, classes and handlers by the other, so it matters
that the two agree. They do because nothing is lost on the way: small letters end no word early, and
so a name in kebab case is read as the very words that it was written from (`words_kebabCase`).

* `flatten_words`: the words of a name hold all its characters but the separators.
* `words_intercalate`: small words with hyphens between them are read back.
* `isKebab_intercalate` and `IsKebab.exists_words`: what such texts look like, said without words.
* `kebabCase_eq_self_iff`: **these texts and no others stay as they are**.
* `pascalCase_kebabCase`: Pascal case can be had from kebab case.
-/

namespace DesignSystem.Text

/-! ### Separators and small letters -/

theorem isSeparator_iff {c : Char} :
    isSeparator c = true ↔ c = '-' ∨ c = '_' ∨ isBlank c = true := by
  rw [isSeparator, Bool.or_eq_true, Bool.or_eq_true, beq_iff_eq, beq_iff_eq, or_assoc]

/-- What holds of the capital letters, and of all characters that are the same in small letters, holds
of every character. -/
theorem forall_of_capitals {P : Char → Prop} (hCapital : ∀ n < 91, 65 ≤ n → P (Char.ofNat n))
    (hSame : ∀ c, c.isUpper = false → c.toLower = c → P c) (c : Char) : P c := by
  cases hUpper : c.isUpper with
  | false => exact hSame c hUpper (dif_neg (of_decide_eq_false hUpper))
  | true =>
    have hRange : 65 ≤ c.toNat ∧ c.toNat ≤ 90 := of_decide_eq_true hUpper
    have hHere := hCapital c.toNat (by omega) hRange.1
    rwa [Char.ofNat_toNat] at hHere

/-- Letters are no separators, be they small or large. -/
theorem isSeparator_toLower : ∀ c : Char, isSeparator c.toLower = isSeparator c := by
  refine forall_of_capitals (by decide) fun c _ hSame => ?_
  rw [hSame]

/-- A word in small letters. -/
def lower (w : List Char) : List Char :=
  w.map Char.toLower

/-! ### The words of a text -/

/-- A word: it is not empty, and no separator is in it. -/
structure IsWord (w : List Char) : Prop where
  ne_nil : w ≠ []
  solid : ∀ c ∈ w, isSeparator c = false

theorem IsWord.not_mem_hyphen {w : List Char} (h : IsWord w) : '-' ∉ w := by
  intro hMem
  exact absurd (h.solid '-' hMem) (by decide)

theorem isWord_reverse {word : List Char} (hNe : word ≠ [])
    (hSolid : ∀ c ∈ word, isSeparator c = false) : IsWord word.reverse :=
  ⟨List.reverse_ne_nil_iff.mpr hNe, fun c hc => hSolid c (List.mem_reverse.mp hc)⟩

theorem isWord_of_mem_wordsFrom {word cs w : List Char} {hump : Bool}
    (hSolid : ∀ c ∈ word, isSeparator c = false) (h : w ∈ wordsFrom word hump cs) : IsWord w := by
  fun_induction wordsFrom word hump cs with
  | case1 => cases h
  | case2 word hump hNe =>
    rw [List.mem_singleton.mp h]
    exact isWord_reverse hNe hSolid
  | case3 hump c cs hSep ih => exact ih (List.forall_mem_nil _) h
  | case4 word hump c cs hSep hNe ih =>
    rcases List.mem_cons.mp h with rfl | hLater
    · exact isWord_reverse hNe hSolid
    · exact ih (List.forall_mem_nil _) hLater
  | case5 word hump c cs hSep hHump ih =>
    rcases List.mem_cons.mp h with rfl | hLater
    · exact isWord_reverse hHump.2.2 hSolid
    · exact ih (List.forall_mem_singleton.mpr (Bool.eq_false_iff.mpr hSep)) hLater
  | case6 word hump c cs hSep hHump ih =>
    exact ih (List.forall_mem_cons.mpr ⟨Bool.eq_false_iff.mpr hSep, hSolid⟩) h

theorem isWord_of_mem_words {cs w : List Char} (h : w ∈ words cs) : IsWord w :=
  isWord_of_mem_wordsFrom (List.forall_mem_nil _) h

theorem flatten_wordsFrom (word : List Char) (hump : Bool) (cs : List Char) :
    (wordsFrom word hump cs).flatten = word.reverse ++ cs.filter fun c => !isSeparator c := by
  fun_induction wordsFrom word hump cs with
  | case1 => rfl
  | case2 word hump hNe => rw [List.flatten_singleton, List.filter_nil, List.append_nil]
  | case3 hump c cs hSep ih => rw [ih, List.filter_cons_of_neg (by simp [hSep])]
  | case4 word hump c cs hSep hNe ih =>
    rw [List.flatten_cons, ih, List.filter_cons_of_neg (by simp [hSep]), List.reverse_nil,
      List.nil_append]
  | case5 word hump c cs hSep hHump ih =>
    rw [List.flatten_cons, ih, List.filter_cons_of_pos (by simp [hSep]), List.reverse_singleton,
      List.singleton_append]
  | case6 word hump c cs hSep hHump ih =>
    rw [ih, List.filter_cons_of_pos (by simp [hSep]), List.reverse_cons, List.append_assoc,
      List.singleton_append]

/-- **The words hold everything but the separators**, in the same order. -/
theorem flatten_words (cs : List Char) :
    (words cs).flatten = cs.filter fun c => !isSeparator c :=
  flatten_wordsFrom [] false cs

/-! ### Small words -/

/-- A word without capital letters, so that no new word begins within it. -/
structure IsSmallWord (w : List Char) : Prop extends IsWord w where
  small : ∀ c ∈ w, c.isUpper = false

theorem IsWord.isSmallWord_lower {w : List Char} (h : IsWord w) : IsSmallWord (lower w) := by
  have hSmall : ∀ c : Char, c.toLower.isUpper = false := by
    refine forall_of_capitals (by decide) fun c hSmall hSame => ?_
    rw [hSame, hSmall]
  refine ⟨⟨fun hNil => h.ne_nil (List.map_eq_nil_iff.mp hNil), ?_⟩, ?_⟩
  · intro c hc
    obtain ⟨c', hc', rfl⟩ := List.mem_map.mp hc
    rw [isSeparator_toLower]
    exact h.solid c' hc'
  · intro c hc
    obtain ⟨c', -, rfl⟩ := List.mem_map.mp hc
    exact hSmall c'

theorem isSmallWord_of_mem_map_lower {cs w : List Char} (h : w ∈ (words cs).map lower) :
    IsSmallWord w := by
  obtain ⟨w', hWord, rfl⟩ := List.mem_map.mp h
  exact (isWord_of_mem_words hWord).isSmallWord_lower

theorem IsSmallWord.lower_eq {w : List Char} (h : IsSmallWord w) : lower w = w := by
  have hSame : ∀ c : Char, c.isUpper = false → c.toLower = c :=
    forall_of_capitals (by decide) fun c _ hSame _ => hSame
  rw [lower, List.map_congr_left fun c hc => hSame c (h.small c hc), List.map_id']

/-- Small characters are added to the word in progress one by one. What they leave is whether a
capital letter would end the word, of which nothing more need be known. -/
theorem exists_wordsFrom_append {w : List Char} (hSolid : ∀ c ∈ w, isSeparator c = false)
    (hSmall : ∀ c ∈ w, c.isUpper = false) (word : List Char) (hump : Bool) (rest : List Char) :
    ∃ hump', wordsFrom word hump (w ++ rest) = wordsFrom (w.reverse ++ word) hump' rest := by
  induction w generalizing word hump with
  | nil => exact ⟨hump, rfl⟩
  | cons c w ih =>
    obtain ⟨hHere, hSolid⟩ := List.forall_mem_cons.mp hSolid
    obtain ⟨hSmallHere, hSmall⟩ := List.forall_mem_cons.mp hSmall
    obtain ⟨hump', hRead⟩ := ih hSolid hSmall (c :: word) (endsHump c)
    refine ⟨hump', ?_⟩
    rw [List.reverse_cons, List.append_assoc, List.singleton_append, ← hRead, List.cons_append,
      wordsFrom, if_neg (by simp [hHere]), if_neg (by simp [hSmallHere])]

theorem words_of_isSmallWord {w : List Char} (h : IsSmallWord w) : words w = [w] := by
  obtain ⟨hump, hRead⟩ := exists_wordsFrom_append h.solid h.small [] false []
  rw [List.append_nil, List.append_nil] at hRead
  rw [words, hRead, wordsFrom, if_neg (List.reverse_ne_nil_iff.mpr h.ne_nil), List.reverse_reverse]

theorem words_append_separator {w : List Char} (h : IsSmallWord w) {c : Char}
    (hSep : isSeparator c = true) (rest : List Char) : words (w ++ c :: rest) = w :: words rest := by
  obtain ⟨hump, hRead⟩ := exists_wordsFrom_append h.solid h.small [] false (c :: rest)
  rw [List.append_nil] at hRead
  rw [words, hRead, wordsFrom, if_pos hSep, if_neg (List.reverse_ne_nil_iff.mpr h.ne_nil),
    List.reverse_reverse, ← words]

/-- **Small words are read back** from a text in which hyphens stand between them. -/
theorem words_intercalate {ws : List (List Char)} (h : ∀ w ∈ ws, IsSmallWord w) :
    words (['-'].intercalate ws) = ws := by
  induction ws with
  | nil => rfl
  | cons w ws ih =>
    obtain ⟨hWord, hRest⟩ := List.forall_mem_cons.mp h
    by_cases hNil : ws = []
    · rw [hNil, List.intercalate_singleton, words_of_isSmallWord hWord]
    · rw [List.intercalate_cons_of_ne_nil hNil, List.append_assoc, List.singleton_append,
        words_append_separator hWord (by decide), ih hRest]

/-! ### Texts in kebab case -/

/-- A text in kebab case: it has no capital letter, no underscore and no blank, and there is
something else on either side of every hyphen. -/
structure IsKebab (cs : List Char) : Prop where
  char : ∀ c ∈ cs, c.isUpper = false ∧ c ≠ '_' ∧ isBlank c = false
  head : cs.head? ≠ some '-'
  last : cs.getLast? ≠ some '-'
  single : ¬['-', '-'] <:+: cs

theorem isKebab_iff_all {cs : List Char} : IsKebab cs ↔
    (cs.all fun c => !c.isUpper && c != '_' && !isBlank c) = true ∧ cs.head? ≠ some '-' ∧
      cs.getLast? ≠ some '-' ∧ occursIn ['-', '-'] cs = false := by
  have hChar : (cs.all fun c => !c.isUpper && c != '_' && !isBlank c) = true ↔
      ∀ c ∈ cs, c.isUpper = false ∧ c ≠ '_' ∧ isBlank c = false := by
    simp [List.all_eq_true, and_assoc]
  rw [hChar, Bool.eq_false_iff, ne_eq (occursIn _ _), occursIn_iff]
  constructor
  · intro h
    exact ⟨h.char, h.head, h.last, h.single⟩
  · rintro ⟨hAll, hHead, hLast, hSingle⟩
    exact ⟨hAll, hHead, hLast, hSingle⟩

instance (cs : List Char) : Decidable (IsKebab cs) :=
  decidable_of_iff _ isKebab_iff_all.symm

theorem IsSmallWord.isKebab_char {w : List Char} (h : IsSmallWord w) {c : Char} (hc : c ∈ w) :
    c.isUpper = false ∧ c ≠ '_' ∧ isBlank c = false := by
  have hSolid := h.solid c hc
  rw [Bool.eq_false_iff, ne_eq, isSeparator_iff, not_or, not_or] at hSolid
  exact ⟨h.small c hc, hSolid.2.1, Bool.eq_false_iff.mpr hSolid.2.2⟩

/-- Small words with hyphens between them are a text in kebab case. -/
theorem isKebab_intercalate {ws : List (List Char)} (h : ∀ w ∈ ws, IsSmallWord w) :
    IsKebab (['-'].intercalate ws) := by
  by_cases hNil : ws = []
  · rw [hNil]
    decide
  · -- No piece is empty, so no hyphen stands at an end or beside another.
    have hPieces : [] ∉ (['-'].intercalate ws).splitOn '-' := by
      rw [List.splitOn_intercalate '-' (fun w hw => (h w hw).not_mem_hyphen) hNil]
      exact fun hMem => (h [] hMem).ne_nil rfl
    rw [nil_mem_splitOn_iff, not_or, not_or, not_or] at hPieces
    obtain ⟨-, hHead, hLast, hSingle⟩ := hPieces
    have hChar : ∀ c ∈ ['-'].intercalate ws, c.isUpper = false ∧ c ≠ '_' ∧ isBlank c = false := by
      intro c hc
      rcases mem_intercalate hc with rfl | ⟨w, hw, hc⟩
      · decide
      · exact (h w hw).isKebab_char hc
    exact ⟨hChar, hHead, hLast, hSingle⟩

/-- A text in kebab case consists of small words with hyphens between them. -/
theorem IsKebab.exists_words {cs : List Char} (h : IsKebab cs) :
    ∃ ws, (∀ w ∈ ws, IsSmallWord w) ∧ cs = ['-'].intercalate ws := by
  by_cases hNil : cs = []
  · exact ⟨[], nofun, hNil⟩
  · have hPieces : [] ∉ cs.splitOn '-' := by
      rw [nil_mem_splitOn_iff]
      rintro (hEmpty | hHead | hLast | hDouble)
      · exact hNil hEmpty
      · exact h.head hHead
      · exact h.last hLast
      · exact h.single hDouble
    refine ⟨cs.splitOn '-', ?_, (List.intercalate_splitOn '-').symm⟩
    intro w hw
    have hMem : ∀ c ∈ w, c ∈ cs := fun c hc => (infix_of_mem_splitOn hw).subset hc
    refine ⟨⟨fun hEmpty => hPieces (hEmpty ▸ hw), ?_⟩, fun c hc => (h.char c (hMem c hc)).1⟩
    intro c hc
    rw [Bool.eq_false_iff, ne_eq, isSeparator_iff]
    rintro (rfl | rfl | hBlank)
    · exact not_mem_of_mem_splitOn hw hc
    · exact (h.char _ (hMem _ hc)).2.1 rfl
    · exact Bool.false_ne_true ((h.char c (hMem c hc)).2.2.symm.trans hBlank)

/-! ### The two forms of a name -/

theorem toList_kebabCase (s : String) :
    (kebabCase s).toList = ['-'].intercalate ((words s.toList).map lower) := by
  rw [kebabCase, String.toList_ofList]
  rfl

/-- **A name in kebab case has the same words** in small letters. -/
theorem words_kebabCase (s : String) :
    words (kebabCase s).toList = (words s.toList).map lower := by
  rw [toList_kebabCase]
  exact words_intercalate fun w => isSmallWord_of_mem_map_lower

theorem isKebab_kebabCase (s : String) : IsKebab (kebabCase s).toList := by
  rw [toList_kebabCase]
  exact isKebab_intercalate fun w => isSmallWord_of_mem_map_lower

/-- **The names that kebab case leaves as they are** are exactly those in kebab case. -/
theorem kebabCase_eq_self_iff {s : String} : kebabCase s = s ↔ IsKebab s.toList := by
  constructor
  · intro h
    rw [← h]
    exact isKebab_kebabCase s
  · intro h
    obtain ⟨ws, hWords, hText⟩ := h.exists_words
    have hLower : ∀ w ∈ ws, lower w = w := fun w hw => (hWords w hw).lower_eq
    apply String.ext
    rw [toList_kebabCase, hText, words_intercalate hWords, List.map_congr_left hLower, List.map_id']

theorem capitalize_lower (w : List Char) : capitalize (lower w) = capitalize w := by
  cases w with
  | nil => rfl
  | cons c w =>
    have hFirst : ∀ c : Char, c.toLower.toUpper = c.toUpper := by
      refine forall_of_capitals (by decide) fun c _ hSame => ?_
      rw [hSame]
    have hTail : ∀ c : Char, c.toLower.toLower = c.toLower := by
      refine forall_of_capitals (by decide) fun c _ hSame => ?_
      rw [hSame, hSame]
    rw [lower, List.map_cons, capitalize, capitalize, hFirst, List.map_map, Function.comp_def,
      List.map_congr_left fun c _ => hTail c]

/-- **Pascal case sees of a name only its kebab case.** -/
theorem pascalCase_kebabCase (s : String) : pascalCase (kebabCase s) = pascalCase s := by
  rw [pascalCase, pascalCase, words_kebabCase, List.flatMap_map]
  simp only [capitalize_lower]

/-- Without its hyphens a name in kebab case is the name in small letters without separators. -/
theorem filter_kebabCase (s : String) : (kebabCase s).toList.filter (· ≠ '-') =
    (s.toList.map Char.toLower).filter fun c => !isSeparator c := by
  have hHyphen : ∀ w ∈ (words s.toList).map lower, '-' ∉ w :=
    fun w hw => (isSmallWord_of_mem_map_lower hw).not_mem_hyphen
  have hSmall : (fun c => !isSeparator c) ∘ Char.toLower = fun c => !isSeparator c :=
    funext fun c => congrArg (!·) (isSeparator_toLower c)
  rw [toList_kebabCase, filter_intercalate hHyphen, List.filter_map, hSmall, ← flatten_words,
    List.map_flatten]
  rfl

/-- **Kebab case is a normal form that Pascal case factors through.** A second time it changes
nothing, and Pascal case is the same before and after. What it gives is in kebab case, and apart from
the hyphens it is what is left of the name in small letters without hyphens, underscores and
blanks. -/
theorem kebab_is_normal_form (s : String) :
    kebabCase (kebabCase s) = kebabCase s ∧
      pascalCase (kebabCase s) = pascalCase s ∧
      IsKebab (kebabCase s).toList ∧
      (kebabCase s).toList.filter (· ≠ '-') =
        (s.toList.map Char.toLower).filter fun c => c ≠ '-' ∧ c ≠ '_' ∧ isBlank c = false := by
  refine ⟨kebabCase_eq_self_iff.mpr (isKebab_kebabCase s), pascalCase_kebabCase s,
    isKebab_kebabCase s, ?_⟩
  rw [filter_kebabCase]
  refine List.filter_congr fun c _ => ?_
  rw [Bool.eq_iff_iff, Bool.not_eq_true', Bool.eq_false_iff, ne_eq, isSeparator_iff, not_or, not_or,
    decide_eq_true_iff, Bool.not_eq_true]

example : kebabCase "XMLHttp_Request 2Go" = "xmlhttp-request-2-go" := by decide

end DesignSystem.Text

namespace DesignSystem.Component

/-- **The names of a component agree.** Its identifier is in kebab case already, and its class is
named as if from the identifier. -/
theorem names_agree (c : Component) :
    c.kebabName = c.id ∧ c.pascalName = Text.pascalCase c.id := by
  constructor
  · rw [kebabName, Text.kebabCase_eq_self_iff]
    cases c <;> decide
  · cases c <;> decide

end DesignSystem.Component
