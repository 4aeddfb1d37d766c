import DesignSystem.Template.Filter
import Mathlib.Data.List.Basic
/-!
# Trimmed and indented texts

A text without blanks at its ends has no line end for `indent` to take away. What is left of that
filter can be said by lines alone: **a trimmed text keeps its lines, with spaces in front of each
but the first and the empty ones** (`indent_trim`).
-/

namespace DesignSystem.Template

/-- The lines of a text, with `width` spaces in front of each but the first and the empty ones. -/
def indented (width : Nat) (s : String) : String :=
  match Text.cut '\n' s with
  | [] => ""
  | first :: rest => Text.glue '\n' (first :: rest.map fun line =>
      if line = "" then "" else String.ofList (List.replicate width ' ') ++ line)

/-! ### The end of a text -/

theorem isBlank_of_getLast?_trim {s : String} {c : Char}
    (h : (Text.trim s).toList.getLast? = some c) : Text.isBlank c = false := by
  rw [Text.trim, String.toList_ofList, Text.dropBlanksEnd, List.getLast?_reverse] at h
  have hHead := List.head?_dropWhile_not Text.isBlank (Text.dropBlanks s.toList).reverse
  rwa [h] at hHead

theorem dropLineEnd_of_getLast? {cs : List Char}
    (h : ∀ c, cs.getLast? = some c → Text.isBlank c = false) : dropLineEnd cs = cs := by
  have hNewline : cs.getLast? ≠ some '\n' := fun hEnd => absurd (h _ hEnd) (by decide)
  have hReturn : cs.getLast? ≠ some '\r' := fun hEnd => absurd (h _ hEnd) (by decide)
  rw [dropLineEnd, if_neg hNewline, if_neg hReturn]

theorem dropLineEnd_concat {cs : List Char}
    (h : ∀ c, cs.getLast? = some c → Text.isBlank c = false) :
    dropLineEnd (cs ++ ['\n']) = cs := by
  have hReturn : cs.getLast? ≠ some '\r' := fun hEnd => absurd (h _ hEnd) (by decide)
  rw [dropLineEnd, List.getLast?_concat, if_pos rfl, List.dropLast_concat, if_neg hReturn]

/-- Lines that end alike make texts that end alike. -/
theorem getLast?_intercalate_congr {lines lines' : List (List Char)}
    (h : lines.map List.getLast? = lines'.map List.getLast?) :
    (['\n'].intercalate lines).getLast? = (['\n'].intercalate lines').getLast? := by
  induction lines generalizing lines' with
  | nil => rw [List.map_eq_nil_iff.1 h.symm]
  | cons line rest ih =>
    obtain ⟨line', rest', rfl, hLine, hRest⟩ := List.map_eq_cons_iff.1 h.symm
    cases rest with
    | nil =>
      rw [List.map_eq_nil_iff.1 hRest, List.intercalate_singleton, List.intercalate_singleton,
        hLine]
    | cons next rest =>
      have hNe : rest' ≠ [] := fun hNil => by simp [hNil] at hRest
      rw [List.intercalate_cons_of_ne_nil hNe, List.intercalate_cons_cons]
      simp only [List.getLast?_append, ih hRest.symm, hLine]

/-! ### Indenting -/

/-- How lines after the first are indented. -/
def spaced (width : Nat) (line : List Char) : List Char :=
  if line = [] then [] else List.replicate width ' ' ++ line

theorem getLast?_spaced (width : Nat) (line : List Char) :
    (spaced width line).getLast? = line.getLast? := by
  unfold spaced
  split
  · rename_i hNil
    rw [hNil]
  · rename_i hNe
    exact List.getLast?_append_of_ne_nil _ hNe

theorem toList_indented {width : Nat} {s : String} {first : List Char} {rest : List (List Char)}
    (h : s.toList.splitOn '\n' = first :: rest) :
    (indented width s).toList = ['\n'].intercalate (first :: rest.map (spaced width)) := by
  simp only [indented, Text.cut, h, List.map_cons, Text.glue, String.toList_intercalate,
    String.toList_singleton, String.toList_ofList, List.map_map]
  congr 2
  apply List.map_congr_left
  intro line _
  by_cases hLine : line = []
  · simp [hLine, spaced]
  · simp [hLine, spaced]

/-- **Indenting a trimmed text puts spaces in front of its lines.** -/
theorem indent_trim (width : Nat) (s : String) :
    indent ⟨width, false, false⟩ (Text.trim s) = indented width (Text.trim s) := by
  have hEnd : ∀ c, (Text.trim s).toList.getLast? = some c → Text.isBlank c = false :=
    fun _ => isBlank_of_getLast?_trim
  obtain ⟨first, rest, hLines⟩ := List.exists_cons_of_ne_nil
    (List.splitOn_ne_nil '\n' (Text.trim s).toList)
  have hSpaced : ∀ c, (['\n'].intercalate (first :: rest.map (spaced width))).getLast? = some c →
      Text.isBlank c = false := by
    have hSame : (first :: rest.map (spaced width)).map List.getLast? =
        (first :: rest).map List.getLast? := by
      simp [Function.comp_def, getLast?_spaced]
    rwa [getLast?_intercalate_congr hSame, ← hLines, List.intercalate_splitOn]
  have hLine : (⟨width, false, false⟩ : Indentation).line = spaced width := by
    funext line
    simp [Indentation.line, spaced]
  apply String.ext
  rw [toList_indented hLines, indent, dropLineEnd_of_getLast? hEnd, hLines]
  simp only [Bool.false_eq_true, if_false, String.toList_ofList]
  rw [hLine, dropLineEnd_concat hSpaced]

/-! ### The filters -/

theorem widthOr_ofNat (default n : Nat) : (Value.ofNat n).widthOr default = .ok n := by
  simp [Value.widthOr, Value.ofNat, Value.asInt?, Value.asNumber?, Number.ratio]

theorem applyFilter_trim (s : String) :
    applyFilter "trim" (.text s) ⟨[], []⟩ = .ok (.text (Text.trim s)) := by
  rfl

theorem applyFilter_indent (s : String) (width : Nat) :
    applyFilter "indent" (.text s) ⟨[.ofNat width], []⟩ =
      .ok (.text (indent ⟨width, false, false⟩ s)) := by
  have hArguments : (⟨[.ofNat width], []⟩ : Arguments).take ["width", "first", "blank"] =
      .ok [.ofNat width, .null, .null] := rfl
  have hFilter : applyFilter "indent" (.text s) ⟨[.ofNat width], []⟩ =
      filterDefined "indent" (.text s) ⟨[.ofNat width], []⟩ := rfl
  rw [hFilter, filterDefined, hArguments]
  simp only [bind, Except.bind, widthOr_ofNat, Value.switch, pure, Except.pure, Value.write]

theorem applyFilter_join (sep : String) (texts : List String) :
    applyFilter "join" (.list (texts.map .text)) ⟨[.text sep], []⟩ =
      .ok (.text (sep.intercalate texts)) := by
  have hTexts : (texts.map Value.text).map Value.write = texts := by
    simp [Function.comp_def, Value.write]
  have hJoin : join sep (.list (texts.map .text)) = .ok (sep.intercalate texts) := by
    have hDefined : (Value.list (texts.map .text)).isUndefined = false := rfl
    simp only [join, hDefined, Bool.false_eq_true, if_false, Value.items, Value.items?, bind,
      Except.bind, hTexts, pure, Except.pure]
  have hArgument : (⟨[.text sep], []⟩ : Arguments).takeOne = .ok (.text sep) := rfl
  rw [applyFilter, hArgument]
  simp only [bind, Except.bind, Value.write, hJoin, pure, Except.pure]

end DesignSystem.Template
