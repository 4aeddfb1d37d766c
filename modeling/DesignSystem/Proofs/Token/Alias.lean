import DesignSystem.Proofs.Text.Cut
import DesignSystem.Token
import Mathlib.Data.List.Basic
/-!
# The texts of aliases

A text is read as an alias or as a literal, an alias is taken apart into segments, and whoever
follows it, looks it up or names its variable puts the segments together again. Nothing is lost in
either step. The braces that are taken off are those that are put on again
(`unbrace?_eq_some_iff`), so an alias comes from one text only (`parse_eq_aliasTo_iff`). The
segments are the pieces of the path between its dots, empty ones included, which is the only list
that gives the path back (`Text.isCut_iff`).
-/

namespace DesignSystem.Token

/-! ### Targets -/

/-- The segments of a target are the pieces of its path. -/
theorem Target.cut_dotted {q : Target} {path : String} (h : q = Target.ofDotted path) :
    Text.cut '.' q.dotted = q.segments := by
  rw [h, Target.dotted_ofDotted]
  rfl

theorem Target.eq_ofDotted_iff {q : Target} {path : String} :
    q = Target.ofDotted path ↔ Text.IsCut '.' path q.segments := by
  obtain ⟨segments⟩ := q
  rw [Text.isCut_iff, Target.ofDotted, Target.mk.injEq]

/-- The variable of a path has a dash for every dot. -/
theorem Target.variableName_ofDotted (path : String) : (Target.ofDotted path).variableName =
    variablePrefix ++ path.map fun c => if c = '.' then '-' else c := by
  rw [variableName, ofDotted, Text.glue_cut_replace]

/-! ### Reading -/

/-- What may stand between the braces of an alias: something, and no brace. -/
structure IsBare (path : String) : Prop where
  ne_empty : path ≠ ""
  noOpening : '\x7b' ∉ path.toList
  noClosing : '\x7d' ∉ path.toList

theorem isBare_iff {path : String} : IsBare path ↔ path.toList ≠ [] ∧
    ¬path.toList.any fun c => c == '\x7b' || c == '\x7d' := by
  have hBraces : (path.toList.any fun c => c == '\x7b' || c == '\x7d') = true ↔
      '\x7b' ∈ path.toList ∨ '\x7d' ∈ path.toList := by
    simp [List.any_eq_true, and_or_left, exists_or]
  rw [hBraces, not_or, ne_eq, String.toList_eq_nil_iff]
  constructor
  · intro h
    exact ⟨h.ne_empty, h.noOpening, h.noClosing⟩
  · rintro ⟨hNe, hOpening, hClosing⟩
    exact ⟨hNe, hOpening, hClosing⟩

namespace Value

theorem unbrace?_eq_some_iff {cs inner : List Char} :
    unbrace? cs = some inner ↔ cs = '\x7b' :: (inner ++ ['\x7d']) := by
  constructor
  · intro h
    unfold unbrace? at h
    split at h
    · rename_i rest
      split at h
      · rename_i hLast
        rw [← Option.some.inj h, List.dropLast_append_getLast? _ hLast]
      · cases h
    · cases h
  · rintro rfl
    rw [unbrace?, if_pos List.getLast?_concat, List.dropLast_concat]

theorem toList_braced (path : String) :
    ("\x7b" ++ path ++ "\x7d").toList = '\x7b' :: (path.toList ++ ['\x7d']) := by
  rw [String.toList_append, String.toList_append]
  rfl

/-- **Which texts are read as which alias.** -/
theorem parse_eq_aliasTo_iff {raw : String} {q : Target} : parse raw = .aliasTo q ↔
    ∃ path, IsBare path ∧ raw = "\x7b" ++ path ++ "\x7d" ∧ q = .ofDotted path := by
  constructor
  · intro h
    unfold parse at h
    split at h
    · rename_i inner hInner
      split at h
      · rename_i hBare
        rw [← String.toList_ofList (l := inner)] at hBare
        refine ⟨String.ofList inner, isBare_iff.mpr hBare, String.ext ?_, (Value.aliasTo.inj h).symm⟩
        rw [toList_braced, String.toList_ofList]
        exact unbrace?_eq_some_iff.mp hInner
      · cases h
    · cases h
  · rintro ⟨path, hBare, rfl, rfl⟩
    rw [parse, unbrace?_eq_some_iff.mpr (toList_braced path)]
    exact (if_pos (isBare_iff.mp hBare)).trans (by rw [String.ofList_toList])

end Value

/-- A path in braces is an alias, if it is not empty and holds no brace itself. -/
theorem parse_braced {path : String} (hNe : path ≠ "") (hOpen : '\x7b' ∉ path.toList)
    (hClose : '\x7d' ∉ path.toList) :
    Value.parse ("\x7b" ++ path ++ "\x7d") = .aliasTo (.ofDotted path) :=
  Value.parse_eq_aliasTo_iff.mpr ⟨path, ⟨hNe, hOpen, hClose⟩, rfl, rfl⟩

/-- An alias has a target that is not empty. -/
theorem ofDotted_of_parse {raw : String} {q : Target} (h : Value.parse raw = .aliasTo q) :
    ∃ inner : List Char, inner ≠ [] ∧ q = Target.ofDotted (String.ofList inner) := by
  obtain ⟨path, hBare, -, hTarget⟩ := Value.parse_eq_aliasTo_iff.mp h
  refine ⟨path.toList, (isBare_iff.mp hBare).1, ?_⟩
  rw [String.ofList_toList, hTarget]

namespace Value

/-- A text is read as a literal only as it stands. -/
theorem eq_of_parse_eq_literal {raw text : String} (h : parse raw = .literal text) :
    text = raw := by
  unfold parse at h
  split at h
  · split at h
    · cases h
    · exact (Value.literal.inj h).symm
  · exact (Value.literal.inj h).symm

/-- What is no alias is a literal. -/
theorem parse_of_not_alias {raw : String} (h : (parse raw).isAlias = false) :
    parse raw = .literal raw := by
  cases hParse : parse raw with
  | literal text => rw [eq_of_parse_eq_literal hParse]
  | aliasTo q =>
    rw [hParse] at h
    cases h

/-- **Which texts are aliases.** -/
theorem isAlias_parse_iff_braced {raw : String} : (parse raw).isAlias = true ↔
    ∃ path, IsBare path ∧ raw = "\x7b" ++ path ++ "\x7d" := by
  constructor
  · intro h
    cases hParse : parse raw with
    | literal text =>
      rw [hParse] at h
      cases h
    | aliasTo q =>
      obtain ⟨path, hBare, hRaw, -⟩ := parse_eq_aliasTo_iff.mp hParse
      exact ⟨path, hBare, hRaw⟩
  · rintro ⟨path, hBare, hRaw⟩
    rw [parse_eq_aliasTo_iff.mpr ⟨path, hBare, hRaw, rfl⟩]
    rfl

/-- **Writing undoes reading.** -/
theorem text_parse (raw : String) : (parse raw).text = raw := by
  cases hParse : parse raw with
  | literal text => exact eq_of_parse_eq_literal hParse
  | aliasTo q =>
    obtain ⟨path, -, rfl, rfl⟩ := parse_eq_aliasTo_iff.mp hParse
    rw [text, Target.dotted_ofDotted]

/-- **Reading is lossless and exact.** Every text is what its value is written as. It is an alias
exactly if it is something without braces in braces, and then the segments are the pieces of that
between the dots, with dots they are that again, and the variable referred to has a dash for every
dot. -/
theorem reading_is_lossless_and_exact (raw : String) :
    (parse raw).text = raw ∧
      ((parse raw).isAlias = true ↔ ∃ path, IsBare path ∧ raw = "\x7b" ++ path ++ "\x7d") ∧
      ∀ target, parse raw = .aliasTo target ↔ ∃ path, IsBare path ∧
        raw = "\x7b" ++ path ++ "\x7d" ∧ Text.IsCut '.' path target.segments ∧
        target.dotted = path ∧
        target.reference = "var(--ds-" ++ path.map (fun c => if c = '.' then '-' else c) ++ ")" := by
  refine ⟨text_parse raw, isAlias_parse_iff_braced, fun target => ?_⟩
  rw [parse_eq_aliasTo_iff]
  constructor
  · rintro ⟨path, hBare, hRaw, rfl⟩
    refine ⟨path, hBare, hRaw, Target.eq_ofDotted_iff.mp rfl, Target.dotted_ofDotted path, ?_⟩
    rw [Target.reference, Target.variableName_ofDotted, ← String.append_assoc]
    rfl
  · rintro ⟨path, hBare, hRaw, hSegments, -, -⟩
    exact ⟨path, hBare, hRaw, Target.eq_ofDotted_iff.mpr hSegments⟩

end Value

end DesignSystem.Token
