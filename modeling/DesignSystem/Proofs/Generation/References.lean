import DesignSystem.Proofs.Generation.Splice
import DesignSystem.Proofs.Keyed
import DesignSystem.Tree.Edit
import Mathlib.Data.List.TakeWhile
/-!
# References in style sheets

A style sheet refers to a style variable where the mark `var(`, blanks or none and the whole name
stand one after the other (`RefersTo`), be it inside another reference or in its fallback. The names
that are found in it are those of all references and no others (`mem_referencedVariables_iff`).

A generated style sheet begins with lines that the component alone decides, goes on with the styles
and ends with a line break; blanks at the ends of the styles are gone. Nothing of this makes a
difference to references: lines without a parenthesis hold no mark, nor can a mark go on from one
line to the next, and blanks are part of neither marks nor names (`referencedVariables_sheet`). So
**what is reported missing from the styles is what the generated style sheet lacks**
(`missing_as_emitted`).
-/

namespace DesignSystem.Generation

/-! ### Characters of marks and names -/

/-- No blank is part of a name. -/
theorem isVariableChar_of_isBlank {c : Char} (h : Text.isBlank c = true) :
    isVariableChar c = false := by
  rw [Bool.eq_false_iff]
  intro hName
  simp only [Text.isBlank, Text.blankRanges, List.any_cons, List.any_nil, Bool.or_false,
    Bool.or_eq_true, Bool.and_eq_true, decide_eq_true_eq] at h
  have hRanges : (((decide (65 ≤ c.toNat ∧ c.toNat ≤ 90) ||
      (decide (97 ≤ c.toNat) && decide (c.toNat ≤ 122))) ||
      (decide (48 ≤ c.toNat) && decide (c.toNat ≤ 57))) || c == '-' || c == '_') = true := hName
  simp only [Bool.or_eq_true, Bool.and_eq_true, decide_eq_true_eq, beq_iff_eq] at hRanges
  rcases hRanges with (((hUpper | hLower) | hDigit) | rfl) | rfl
  · omega
  · omega
  · omega
  · revert h
    decide
  · revert h
    decide

/-- No blank is part of the mark. -/
theorem not_mem_mark_of_isBlank {c : Char} (h : Text.isBlank c = true) : c ∉ referenceMark := by
  intro hMem
  have hNone : referenceMark.any Text.isBlank = false := by decide
  exact List.any_eq_false.mp hNone c hMem h

/-- A list without `x` that begins where `x` comes later ends before it. -/
theorem prefix_of_prefix_append_cons {α : Type} {p l m : List α} {x : α} (hx : x ∉ p)
    (h : p <+: l ++ x :: m) : p <+: l := by
  by_cases hLength : p.length ≤ l.length
  · exact List.prefix_of_prefix_length_le h (List.prefix_append l _) hLength
  · exfalso
    apply hx
    have hFront : l ++ [x] <+: l ++ x :: m := ⟨m, by simp⟩
    have hShort : (l ++ [x]).length ≤ p.length := by
      rw [List.length_append, List.length_singleton]
      omega
    obtain ⟨rest, hRest⟩ := List.prefix_of_prefix_length_le hFront h hShort
    rw [← hRest]
    simp

/-- A mark does not reach over a character that is not part of it. -/
theorem isPrefixOf_mark_append_cons {x : Char} (hx : x ∉ referenceMark) (cs rest : List Char) :
    referenceMark.isPrefixOf (cs ++ x :: rest) = referenceMark.isPrefixOf cs := by
  rw [Bool.eq_iff_iff, List.isPrefixOf_iff_prefix, List.isPrefixOf_iff_prefix]
  constructor
  · intro h
    exact prefix_of_prefix_append_cons hx h
  · intro h
    exact h.trans (List.prefix_append cs _)

/-! ### Text around references -/

theorem references_cons (c : Char) (cs : List Char) :
    references (c :: cs) = (if referenceMark.isPrefixOf (c :: cs) then
      (variableAfter? ((c :: cs).drop referenceMark.length)).toList else []) ++ references cs :=
  rfl

/-- A line without a parenthesis refers to nothing, and no reference begins in it. -/
theorem references_append_cons {line : List Char} {x : Char} (hLine : '(' ∉ line)
    (hx : x ∉ referenceMark) (cs : List Char) :
    references (line ++ x :: cs) = references cs := by
  induction line with
  | nil =>
    have hMark : referenceMark.isPrefixOf (x :: cs) = false := by
      have h := isPrefixOf_mark_append_cons hx [] cs
      rw [List.nil_append] at h
      rw [h]
      rfl
    rw [List.nil_append, references_cons, hMark]
    rfl
  | cons c line ih =>
    have hMark : referenceMark.isPrefixOf (c :: line) = false := by
      rw [Bool.eq_false_iff]
      intro h
      have hParenthesis : '(' ∈ referenceMark := by decide
      exact hLine ((List.isPrefixOf_iff_prefix.mp h).subset hParenthesis)
    have hRest : '(' ∉ line := fun h => hLine (List.mem_cons_of_mem c h)
    rw [List.cons_append, references_cons, ← List.cons_append, isPrefixOf_mark_append_cons hx,
      hMark, ih hRest]
    rfl

/-- Blanks in front make no difference to references. -/
theorem references_blanks_append {blanks : List Char} (h : ∀ c ∈ blanks, Text.isBlank c = true)
    (cs : List Char) : references (blanks ++ cs) = references cs := by
  induction blanks with
  | nil => rfl
  | cons c blanks ih =>
    obtain ⟨hHead, hTail⟩ := List.forall_mem_cons.mp h
    have hStep : references ([] ++ c :: (blanks ++ cs)) = references (blanks ++ cs) :=
      references_append_cons List.not_mem_nil (not_mem_mark_of_isBlank hHead) (blanks ++ cs)
    rw [List.nil_append] at hStep
    rw [List.cons_append, hStep, ih hTail]

/-- The name after a mark ends before blanks. -/
theorem variableAfter?_append_blanks {blanks : List Char}
    (h : ∀ c ∈ blanks, Text.isBlank c = true) (cs : List Char) :
    variableAfter? (cs ++ blanks) = variableAfter? cs := by
  have hNoName : blanks.takeWhile isVariableChar = [] := by
    cases blanks with
    | nil => rfl
    | cons c rest =>
      have hHead := isVariableChar_of_isBlank (h c List.mem_cons_self)
      exact List.takeWhile_cons_of_neg (Bool.eq_false_iff.mp hHead)
  have hName : (Text.dropBlanks (cs ++ blanks)).takeWhile isVariableChar =
      (Text.dropBlanks cs).takeWhile isVariableChar := by
    rw [Text.dropBlanks, Text.dropBlanks, List.dropWhile_append]
    split
    · rename_i hAll
      rw [List.isEmpty_iff.mp hAll, List.dropWhile_eq_nil_iff.mpr h]
    · rw [List.takeWhile_append, hNoName]
      split
      · rename_i hWhole
        rw [List.append_nil]
        exact ((List.takeWhile_prefix _).eq_of_length hWhole).symm
      · rfl
  rw [variableAfter?, hName]
  rfl

/-- Blanks at the end make no difference to references. -/
theorem references_append_blanks {blanks : List Char} (h : ∀ c ∈ blanks, Text.isBlank c = true)
    (cs : List Char) : references (cs ++ blanks) = references cs := by
  induction cs with
  | nil =>
    have hBlanks := references_blanks_append h []
    rw [List.append_nil] at hBlanks
    rw [List.nil_append, hBlanks]
  | cons c cs ih =>
    have hMark : referenceMark.isPrefixOf (c :: cs ++ blanks) =
        referenceMark.isPrefixOf (c :: cs) := by
      cases blanks with
      | nil => rw [List.append_nil]
      | cons x rest =>
        exact isPrefixOf_mark_append_cons (not_mem_mark_of_isBlank (h x List.mem_cons_self)) _ _
    rw [List.cons_append, references_cons, references_cons, ← List.cons_append, hMark, ih]
    split
    · rename_i hOpens
      have hLength := (List.isPrefixOf_iff_prefix.mp hOpens).length_le
      rw [List.drop_append_of_le_length hLength, variableAfter?_append_blanks h]
    · rfl

/-- Trimming takes away nothing but blanks. -/
theorem exists_eq_trim (s : String) : ∃ front back : List Char,
    s.toList = front ++ (Text.trim s).toList ++ back ∧
      (∀ c ∈ front, Text.isBlank c = true) ∧ ∀ c ∈ back, Text.isBlank c = true := by
  have hRest := (Text.dropBlanks s.toList).reverse.takeWhile_append_dropWhile (p := Text.isBlank)
  refine ⟨s.toList.takeWhile Text.isBlank,
    ((Text.dropBlanks s.toList).reverse.takeWhile Text.isBlank).reverse, ?_, ?_, ?_⟩
  · rw [Text.trim, String.toList_ofList, Text.dropBlanksEnd, List.append_assoc,
      ← List.reverse_append, hRest, List.reverse_reverse]
    exact List.takeWhile_append_dropWhile.symm
  · intro c hc
    exact List.mem_takeWhile_imp hc
  · intro c hc
    exact List.mem_takeWhile_imp (List.mem_reverse.mp hc)

/-- **A style sheet refers to what its styles refer to**, if it begins with lines that hold no
parenthesis. -/
theorem referencedVariables_sheet {header lines : String} (hHeader : header = lines ++ "\n")
    (h : '(' ∉ lines.toList) (styles : String) :
    referencedVariables (header ++ Text.trim styles ++ "\n") = referencedVariables styles := by
  have hBreak : ∀ c ∈ ['\n'], Text.isBlank c = true := List.forall_mem_singleton.mpr (by decide)
  have hMark : '\n' ∉ referenceMark := by decide
  obtain ⟨front, back, hStyles, hFront, hBack⟩ := exists_eq_trim styles
  have hSheet : (header ++ Text.trim styles ++ "\n").toList =
      lines.toList ++ '\n' :: ((Text.trim styles).toList ++ ['\n']) := by
    simp [hHeader]
  have hSame : references (header ++ Text.trim styles ++ "\n").toList =
      references styles.toList := by
    calc references (header ++ Text.trim styles ++ "\n").toList
        = references ((Text.trim styles).toList ++ ['\n']) := by
          rw [hSheet, references_append_cons h hMark]
      _ = references (Text.trim styles).toList := references_append_blanks hBreak _
      _ = references (front ++ (Text.trim styles).toList ++ back) := by
          rw [references_append_blanks hBack, references_blanks_append hFront]
      _ = references styles.toList := by rw [hStyles]
  rw [referencedVariables, hSame, referencedVariables]

/-! ### What the references are -/

/-- A style sheet refers to a variable: somewhere its name stands after a mark and blanks, begins as
all names of variables do, and is whole, no character of it being left out at the end. -/
def RefersTo (css name : String) : Prop :=
  ∃ before blanks after : String, css = before ++ "var(" ++ blanks ++ name ++ after ∧
    (∀ c ∈ blanks.toList, Text.isBlank c = true) ∧
    (∃ rest, name = variablePrefix ++ rest) ∧ (∀ c ∈ name.toList, isVariableChar c = true) ∧
    ∀ c, after.toList.head? = some c → isVariableChar c = false

/-- References are found at every mark. -/
theorem mem_references_iff {cs : List Char} {name : String} : name ∈ references cs ↔
    ∃ before rest, cs = before ++ referenceMark ++ rest ∧ variableAfter? rest = some name := by
  induction cs with
  | nil =>
    constructor
    · intro h
      cases h
    · rintro ⟨before, rest, h, -⟩
      have hEmpty := congrArg List.length h
      simp [referenceMark] at hEmpty
  | cons c cs ih =>
    rw [references_cons, List.mem_append, ih]
    constructor
    · rintro (hHere | ⟨before, rest, rfl, hName⟩)
      · split at hHere
        · rename_i hOpens
          obtain ⟨rest, hRest⟩ := List.isPrefixOf_iff_prefix.mp hOpens
          refine ⟨[], rest, hRest.symm, ?_⟩
          rw [← hRest, List.drop_left] at hHere
          exact Option.mem_toList.mp hHere
        · cases hHere
      · exact ⟨c :: before, rest, by simp, hName⟩
    · rintro ⟨before, rest, hSplit, hName⟩
      cases before with
      | nil =>
        rw [List.nil_append] at hSplit
        have hOpens : referenceMark.isPrefixOf (c :: cs) = true :=
          List.isPrefixOf_iff_prefix.mpr ⟨rest, hSplit.symm⟩
        rw [if_pos hOpens, hSplit, List.drop_left, hName]
        exact .inl (Option.mem_toList.mpr rfl)
      | cons d before =>
        obtain ⟨-, hTail⟩ := List.cons.inj hSplit
        exact .inr ⟨before, rest, hTail, hName⟩

/-- The characters in front that satisfy a condition are those before the first that does not. -/
theorem takeWhile_eq_iff {α : Type} {p : α → Bool} {l front : List α} :
    l.takeWhile p = front ↔ ∃ rest, l = front ++ rest ∧ (∀ a ∈ front, p a = true) ∧
      ∀ a, rest.head? = some a → p a = false := by
  constructor
  · rintro rfl
    refine ⟨l.dropWhile p, List.takeWhile_append_dropWhile.symm, ?_, ?_⟩
    · intro a ha
      exact List.mem_takeWhile_imp ha
    · intro a ha
      have hHead := List.head?_dropWhile_not p l
      rw [ha] at hHead
      exact hHead
  · rintro ⟨rest, rfl, hFront, hRest⟩
    rw [List.takeWhile_append_of_pos hFront]
    cases rest with
    | nil => simp
    | cons a rest =>
      rw [List.takeWhile_cons_of_neg (Bool.eq_false_iff.mp (hRest a rfl)), List.append_nil]

/-- The name after a mark is the whole name that follows the blanks. -/
theorem variableAfter?_eq_some_iff {cs : List Char} {name : String} :
    variableAfter? cs = some name ↔ ∃ blanks rest : List Char,
      cs = blanks ++ name.toList ++ rest ∧ (∀ c ∈ blanks, Text.isBlank c = true) ∧
      variablePrefix.toList <+: name.toList ∧ (∀ c ∈ name.toList, isVariableChar c = true) ∧
      ∀ c, rest.head? = some c → isVariableChar c = false := by
  simp only [variableAfter?, Option.ite_none_right_eq_some, Option.some.injEq,
    List.isPrefixOf_iff_prefix]
  constructor
  · rintro ⟨hPrefix, rfl⟩
    rw [String.toList_ofList]
    obtain ⟨rest, hRest, hName, hEnd⟩ := takeWhile_eq_iff.mp
      (rfl : (Text.dropBlanks cs).takeWhile isVariableChar = _)
    refine ⟨cs.takeWhile Text.isBlank, rest, ?_, ?_, hPrefix, hName, hEnd⟩
    · rw [List.append_assoc, ← hRest]
      exact List.takeWhile_append_dropWhile.symm
    · intro c hc
      exact List.mem_takeWhile_imp hc
  · rintro ⟨blanks, rest, rfl, hBlanks, hPrefix, hName, hEnd⟩
    -- a name begins with a dash, so the blanks end where it begins
    have hDrop : Text.dropBlanks (blanks ++ name.toList ++ rest) = name.toList ++ rest := by
      obtain ⟨more, hMore⟩ := hPrefix
      rw [Text.dropBlanks, List.append_assoc, List.dropWhile_append_of_pos hBlanks, ← hMore]
      rfl
    have hTake : (name.toList ++ rest).takeWhile isVariableChar = name.toList :=
      takeWhile_eq_iff.mpr ⟨rest, rfl, hName, hEnd⟩
    rw [hDrop, hTake]
    exact ⟨hPrefix, String.ofList_toList⟩

/-- **The variables found in a style sheet are those that it refers to.** -/
theorem mem_referencedVariables_iff {css name : String} :
    name ∈ referencedVariables css ↔ RefersTo css name := by
  have hFound : name ∈ referencedVariables css ↔ name ∈ references css.toList := by
    rw [referencedVariables, Keyed.keys, List.mem_map]
    constructor
    · rintro ⟨e, he, rfl⟩
      obtain ⟨found, hFound, rfl⟩ := List.mem_map.mp (Keyed.mem_ofList he)
      exact hFound
    · intro h
      have hMem : (name, ()) ∈ (references css.toList).map fun name => (name, ()) :=
        List.mem_map.mpr ⟨name, h, rfl⟩
      have hHas := (Keyed.has_ofList _ name).mpr ⟨_, hMem, rfl⟩
      obtain ⟨value, hGet⟩ := Option.isSome_iff_exists.mp hHas
      exact ⟨_, Keyed.mem_of_get? hGet, rfl⟩
  rw [hFound, mem_references_iff]
  constructor
  · rintro ⟨before, rest, hMark, hName⟩
    obtain ⟨blanks, after, rfl, hBlanks, ⟨more, hMore⟩, hWhole, hEnd⟩ :=
      variableAfter?_eq_some_iff.mp hName
    refine ⟨String.ofList before, String.ofList blanks, String.ofList after, ?_, ?_, ?_, hWhole, ?_⟩
    · apply String.ext
      simp [hMark, referenceMark]
    · rwa [String.toList_ofList]
    · refine ⟨String.ofList more, ?_⟩
      apply String.ext
      simp [← hMore]
    · rwa [String.toList_ofList]
  · rintro ⟨before, blanks, after, rfl, hBlanks, ⟨more, hMore⟩, hWhole, hEnd⟩
    refine ⟨before.toList, blanks.toList ++ name.toList ++ after.toList, ?_, ?_⟩
    · simp [referenceMark]
    · refine variableAfter?_eq_some_iff.mpr ⟨_, _, rfl, hBlanks, ?_, hWhole, hEnd⟩
      rw [hMore, String.toList_append]
      exact List.prefix_append _ _

/-- Every variable is named once. -/
theorem sorted_referencedVariables (css : String) :
    (referencedVariables css).Pairwise (· < ·) :=
  List.pairwise_map.mpr (Keyed.ordered_ofList _)

/-! ### Generated style sheets -/

/-- The style sheets among files. -/
def styleSheets (files : List GeneratedFile) : List String :=
  (files.filter fun file => file.language = .css).map GeneratedFile.content

/-- No component has a parenthesis in its name or in its way of being laid out. -/
theorem no_parenthesis (c : Component) :
    '(' ∉ c.definition.name.toList ∧ '(' ∉ c.interface.display.toList := by
  cases c <;> decide

/-- A file is in the language of an output and has the text of its skeleton. -/
def IsFileOf (data : Json) (o : Output) (file : GeneratedFile) : Prop :=
  file.language = o.language ∧ Skeleton.library.render o.skeleton data = .ok file.content

theorem exists_fill (c : Component) (f : Fragments) {s : Strategy} {o : Output}
    (ho : o ∈ s.outputs) :
    ∃ file, fill (c.describe f) o = .ok file ∧ IsFileOf (c.describe f) o file := by
  obtain ⟨hFileName, hDescription⟩ := outlined_output s o ho
  obtain ⟨fileName, hFileName⟩ := exists_renderText c hFileName
  obtain ⟨description, hDescription⟩ := exists_renderText c hDescription
  obtain ⟨outline, -, hContent⟩ := exists_render_skeleton c (exists_source ho)
  refine ⟨⟨fileName, outline.write (·.text f), o.language, description⟩, ?_, rfl, hContent f⟩
  rw [fill, hFileName f, hContent f, hDescription f]
  rfl

theorem exists_mapM_forall₂ {α β ε : Type} {f : α → Except ε β} {p : α → β → Prop} {l : List α}
    (h : ∀ a ∈ l, ∃ b, f a = .ok b ∧ p a b) : ∃ bs, l.mapM f = .ok bs ∧ List.Forall₂ p l bs := by
  induction l with
  | nil => exact ⟨[], rfl, .nil⟩
  | cons a rest ih =>
    obtain ⟨b, hb, hFirst⟩ := h a List.mem_cons_self
    obtain ⟨bs, hbs, hRest⟩ := ih fun a' ha => h a' (List.mem_cons_of_mem _ ha)
    refine ⟨b :: bs, ?_, .cons hFirst hRest⟩
    rw [List.mapM_cons, hb, hbs]
    rfl

/-- Generating never fails, and every output becomes a file. -/
theorem exists_files (s : Strategy) (c : Component) (f : Fragments) :
    ∃ files, Generation.files s c f = .ok files ∧
      List.Forall₂ (IsFileOf (c.describe f)) s.outputs files :=
  exists_mapM_forall₂ fun _ ho => exists_fill c f ho

/-- The style sheet of a native React component refers to what the styles refer to. -/
theorem referencedVariables_module {c : Component} {f : Fragments} {sheet : String}
    (h : Skeleton.library.render "native-react/module.css" (c.describe f) = .ok sheet) :
    referencedVariables sheet = referencedVariables f.styles := by
  rw [render_module] at h
  rw [← Except.ok.inj h]
  have hHeader : "/* " ++ c.definition.name ++ ". Generated by dsforge. */\n\n" =
      "/* " ++ c.definition.name ++ ". Generated by dsforge. */\n" ++ "\n" := by
    simp only [String.append_assoc]
    rfl
  apply referencedVariables_sheet hHeader
  simpa using (no_parenthesis c).1

/-- The style sheet of a native Angular component refers to what the styles refer to. -/
theorem referencedVariables_stylesheet {c : Component} {f : Fragments} {sheet : String}
    (h : Skeleton.library.render "native-angular/component.css" (c.describe f) = .ok sheet) :
    referencedVariables sheet = referencedVariables f.styles := by
  rw [render_stylesheet] at h
  rw [← Except.ok.inj h]
  have hHeader : ":host \x7b\n  display: " ++ c.interface.display ++ ";\n\x7d\n\n" =
      ":host \x7b\n  display: " ++ c.interface.display ++ ";\n\x7d\n" ++ "\n" := by
    simp only [String.append_assoc]
    rfl
  apply referencedVariables_sheet hHeader
  simpa using (no_parenthesis c).2

/-- **A native strategy generates one style sheet, which refers to what the styles refer to.** -/
theorem exists_styleSheet {s : Strategy} (hNative : s ≠ .webComponent) (c : Component)
    (f : Fragments) : ∃ files sheet, Generation.files s c f = .ok files ∧
      styleSheets files = [sheet] ∧ referencedVariables sheet = referencedVariables f.styles := by
  obtain ⟨files, hFiles, hOutputs⟩ := exists_files s c f
  cases s with
  | webComponent => exact absurd rfl hNative
  | nativeReact =>
    obtain _ | ⟨⟨hView, -⟩, _ | ⟨⟨hSheet, hContent⟩, _ | ⟨⟨hIndex, -⟩, _ | _⟩⟩⟩ := hOutputs
    refine ⟨_, _, hFiles, ?_, referencedVariables_module hContent⟩
    simp [styleSheets, hView, hSheet, hIndex]
  | nativeAngular =>
    obtain _ | ⟨⟨hView, -⟩, _ | ⟨⟨hSheet, hContent⟩, _ | _⟩⟩ := hOutputs
    refine ⟨_, _, hFiles, ?_, referencedVariables_stylesheet hContent⟩
    simp [styleSheets, hView, hSheet]

/-- **What is reported missing is what the generated style sheet lacks.** For every component with
any fragments, a native strategy generates one style sheet. The variables found in it are those found
in the styles: each once, and exactly those that the styles refer to. So the report names the
variables of the style sheet that the tree of tokens does not define. -/
theorem missing_as_emitted (r : Registry) (hNative : r.strategy ≠ .webComponent) (c : Component)
    (f : Fragments) (tokens : Tree) :
    (∃ files sheet, (r.register c f).report? c tokens =
          some ⟨missingVariables sheet tokens, .ok files⟩ ∧
        styleSheets files = [sheet] ∧
        referencedVariables sheet = referencedVariables f.styles) ∧
      (referencedVariables f.styles).Pairwise (· < ·) ∧
      ∀ name, name ∈ referencedVariables f.styles ↔ RefersTo f.styles name := by
  obtain ⟨files, sheet, hFiles, hSheet, hSame⟩ := exists_styleSheet hNative c f
  refine ⟨⟨files, sheet, ?_, hSheet, hSame⟩, sorted_referencedVariables f.styles,
    fun name => mem_referencedVariables_iff⟩
  rw [report?_register, hFiles, missingVariables, missingVariables, hSame]

/-- Fragments whose styles end within a reference in the fallback of another. -/
def nestedFragments : Fragments :=
  ⟨" a \x7b color: var(\n--ds-a, var( --ds-b ", "", "", "", none, none⟩

theorem nested_missing_as_emitted : (Registry.empty .nativeReact).strategy ≠ .webComponent ∧
    ∃ files sheet, ((Registry.empty .nativeReact).register .badge nestedFragments).report? .badge
        (Tree.empty.set "a" "1") = some ⟨["--ds-b"], .ok files⟩ ∧
      styleSheets files = [sheet] ∧ referencedVariables sheet = ["--ds-a", "--ds-b"] ∧
      RefersTo nestedFragments.styles "--ds-b" := by
  have hNative : (Registry.empty .nativeReact).strategy ≠ .webComponent := by decide
  have hFound : referencedVariables nestedFragments.styles = ["--ds-a", "--ds-b"] := by
    decide +kernel
  have hDefined : Keyed.has (Tree.empty.set "a" "1").flatten "--ds-a" = true := by decide +kernel
  have hLacking : Keyed.has (Tree.empty.set "a" "1").flatten "--ds-b" = false := by decide +kernel
  obtain ⟨⟨files, sheet, hReport, hSheet, hSame⟩, -, hRefers⟩ :=
    missing_as_emitted (Registry.empty .nativeReact) hNative .badge nestedFragments
      (Tree.empty.set "a" "1")
  rw [hFound] at hSame
  have hMissing : missingVariables sheet (Tree.empty.set "a" "1") = ["--ds-b"] := by
    rw [missingVariables, hSame]
    simp [hDefined, hLacking]
  rw [hMissing] at hReport
  refine ⟨hNative, files, sheet, hReport, hSheet, hSame, (hRefers "--ds-b").mp ?_⟩
  rw [hFound]
  decide

end DesignSystem.Generation
