import DesignSystem.Text.Cut
/-!
# Texts and their pieces

`Text.glue_cut` says that gluing undoes cutting. The other way round needs pieces without the
separator (`cut_glue`), and those of a cut text are such (`not_mem_of_mem_cut`). So the pieces of a
text are told by these two properties alone (`isCut_iff`). A piece is empty only where a separator
has nothing beside it, at an end or next to another (`nil_mem_splitOn_iff`). A text that occurs in
another is a piece of it in the plain sense (`occursIn_toList_iff`).
-/

namespace DesignSystem.Text

/-! ### Cutting -/

theorem cut_ne_nil (sep : Char) (s : String) : cut sep s ≠ [] := by
  intro hNil
  exact List.splitOn_ne_nil _ _ (List.map_eq_nil_iff.mp hNil)

theorem cut_injective {sep : Char} {s s' : String} (h : cut sep s = cut sep s') : s = s' := by
  rw [← glue_cut sep s, h, glue_cut]

theorem not_mem_of_mem_splitOn {sep : Char} {cs piece : List Char}
    (h : piece ∈ cs.splitOn sep) : sep ∉ piece := by
  induction cs generalizing piece with
  | nil =>
    rw [List.splitOn_nil, List.mem_singleton] at h
    rw [h]
    exact List.not_mem_nil
  | cons c cs ih =>
    rw [List.splitOn_cons_eq_if_modifyHead] at h
    split at h
    · rcases List.mem_cons.mp h with rfl | h
      · exact List.not_mem_nil
      · exact ih h
    · rename_i hNe
      obtain ⟨first, rest, hSplit⟩ := List.exists_cons_of_ne_nil (List.splitOn_ne_nil sep cs)
      rw [hSplit] at h ih
      rcases List.mem_cons.mp h with rfl | h
      · rw [List.mem_cons, not_or]
        exact ⟨fun hEq => hNe (beq_iff_eq.mpr hEq.symm), ih List.mem_cons_self⟩
      · exact ih (List.mem_cons_of_mem first h)

/-- The pieces of a text do not hold the separator. -/
theorem not_mem_of_mem_cut {sep : Char} {s piece : String} (h : piece ∈ cut sep s) :
    sep ∉ piece.toList := by
  obtain ⟨l, hl, rfl⟩ := List.mem_map.mp h
  rw [String.toList_ofList]
  exact not_mem_of_mem_splitOn hl

/-! ### Characters with a separator between some of them -/

section Characters

variable {sep : Char} {cs : List Char} {pieces : List (List Char)}

theorem mem_intercalate {c : Char} (h : c ∈ [sep].intercalate pieces) :
    c = sep ∨ ∃ piece ∈ pieces, c ∈ piece := by
  induction pieces with
  | nil => cases h
  | cons piece rest ih =>
    by_cases hNil : rest = []
    · rw [hNil, List.intercalate_singleton] at h
      exact .inr ⟨piece, List.mem_cons_self, h⟩
    · rw [List.intercalate_cons_of_ne_nil hNil, List.mem_append, List.mem_append] at h
      rcases h with (hHere | hSep) | hRest
      · exact .inr ⟨piece, List.mem_cons_self, hHere⟩
      · exact .inl (List.mem_singleton.mp hSep)
      · rcases ih hRest with hSep | ⟨other, hMem, hc⟩
        · exact .inl hSep
        · exact .inr ⟨other, List.mem_cons_of_mem piece hMem, hc⟩

theorem infix_intercalate {piece : List Char} (h : piece ∈ pieces) :
    piece <:+: [sep].intercalate pieces := by
  induction pieces with
  | nil => cases h
  | cons first rest ih =>
    by_cases hNil : rest = []
    · rw [hNil, List.mem_singleton] at h
      rw [hNil, List.intercalate_singleton]
      exact h ▸ List.infix_rfl
    · rw [List.intercalate_cons_of_ne_nil hNil]
      rcases List.mem_cons.mp h with rfl | hRest
      · rw [List.append_assoc]
        exact List.infix_append_left
      · exact List.infix_append_of_infix_right (ih hRest)

theorem infix_of_mem_splitOn {piece : List Char} (h : piece ∈ cs.splitOn sep) : piece <:+: cs := by
  have hInfix : piece <:+: [sep].intercalate (cs.splitOn sep) := infix_intercalate h
  rwa [List.intercalate_splitOn] at hInfix

/-- Without the separators, the pieces follow on each other. -/
theorem filter_intercalate (h : ∀ piece ∈ pieces, sep ∉ piece) :
    ([sep].intercalate pieces).filter (· ≠ sep) = pieces.flatten := by
  induction pieces with
  | nil => rfl
  | cons piece rest ih =>
    obtain ⟨hHere, hRest⟩ := List.forall_mem_cons.mp h
    have hKept : piece.filter (· ≠ sep) = piece := by
      rw [List.filter_eq_self]
      intro c hc
      exact decide_eq_true fun hEq => hHere (hEq ▸ hc)
    have hSep : [sep].filter (· ≠ sep) = [] := by simp
    by_cases hNil : rest = []
    · rw [hNil, List.intercalate_singleton, List.flatten_singleton, hKept]
    · rw [List.intercalate_cons_of_ne_nil hNil, List.filter_append, List.filter_append, hKept, hSep,
        List.append_nil, ih hRest, List.flatten_cons]

/-- **Where a piece is empty.** Then the text is empty, or it has a separator at one of its ends or
two of them side by side. -/
theorem nil_mem_splitOn_iff : [] ∈ cs.splitOn sep ↔
    cs = [] ∨ cs.head? = some sep ∨ cs.getLast? = some sep ∨ [sep, sep] <:+: cs := by
  constructor
  · intro h
    induction hn : cs.length using Nat.strongRecOn generalizing cs with
    | ind n ih =>
      by_cases hSep : sep ∈ cs
      · -- An empty piece is the one before the first separator, or it lies behind that one.
        obtain ⟨front, back, rfl, hFront⟩ := List.eq_append_cons_of_mem hSep
        rw [List.splitOn_append_cons_self_of_not_mem hFront, List.mem_cons] at h
        rcases h with hNil | hBack
        · rw [← hNil]
          exact .inr (.inl rfl)
        · have hShorter : back.length < n := by
            rw [← hn, List.length_append, List.length_cons]
            omega
          rcases ih back.length hShorter hBack rfl with hNil | hHead | hLast | hInner
          · rw [hNil]
            exact .inr (.inr (.inl List.getLast?_concat))
          · obtain ⟨back', rfl⟩ := List.head?_eq_some_iff.mp hHead
            exact .inr (.inr (.inr ⟨front, back', by simp⟩))
          · obtain ⟨back', rfl⟩ := List.getLast?_eq_some_iff.mp hLast
            refine .inr (.inr (.inl ?_))
            rw [← List.cons_append, ← List.append_assoc]
            exact List.getLast?_concat
          · exact .inr (.inr (.inr (List.infix_append_of_infix_right (List.infix_cons hInner))))
      · rw [List.splitOn_eq_singleton hSep, List.mem_singleton] at h
        exact .inl h.symm
  · have hCut : ∀ front back : List Char,
        (front ++ sep :: back).splitOn sep = front.splitOn sep ++ back.splitOn sep :=
      List.splitOn_append_cons_self
    have hEmpty : [] ∈ ([] : List Char).splitOn sep := List.mem_singleton.mpr rfl
    rintro (rfl | hHead | hLast | ⟨front, back, rfl⟩)
    · exact hEmpty
    · obtain ⟨back, rfl⟩ := List.head?_eq_some_iff.mp hHead
      rw [← List.nil_append (sep :: back), hCut]
      exact List.mem_append_left _ hEmpty
    · obtain ⟨front, rfl⟩ := List.getLast?_eq_some_iff.mp hLast
      rw [hCut]
      exact List.mem_append_right _ hEmpty
    · rw [List.append_assoc, List.cons_append, hCut, List.singleton_append,
        ← List.nil_append (sep :: back), hCut]
      exact List.mem_append_right _ (List.mem_append_left _ hEmpty)

/-- Pieces with another separator between them are the text with that one in its place. -/
theorem intercalate_splitOn_replace (a b : Char) (cs : List Char) :
    [b].intercalate (cs.splitOn a) = cs.map fun c => if c = a then b else c := by
  induction cs with
  | nil => rfl
  | cons c cs ih =>
    have hNe : cs.splitOn a ≠ [] := List.splitOn_ne_nil a cs
    rw [List.splitOn_cons_eq_if_modifyHead, List.map_cons]
    by_cases hEq : c = a
    · rw [if_pos (beq_iff_eq.mpr hEq), if_pos hEq, List.intercalate_cons_of_ne_nil hNe, ih]
      rfl
    · obtain ⟨first, rest, hSplit⟩ := List.exists_cons_of_ne_nil hNe
      rw [hSplit] at ih
      rw [if_neg (fun hBeq => hEq (beq_iff_eq.mp hBeq)), if_neg hEq, hSplit, List.modifyHead_cons,
        List.intercalate_cons_cons_left, ih]

end Characters

/-! ### Gluing -/

theorem glue_singleton (sep : Char) (piece : String) : glue sep [piece] = piece :=
  String.intercalate_singleton

theorem glue_cons {sep : Char} {pieces : List String} (h : pieces ≠ []) (piece : String) :
    glue sep (piece :: pieces) = piece ++ String.singleton sep ++ glue sep pieces :=
  String.intercalate_cons_of_ne_nil h

theorem glue_concat {sep : Char} {pieces : List String} (h : pieces ≠ []) (piece : String) :
    glue sep (pieces ++ [piece]) = glue sep pieces ++ String.singleton sep ++ piece := by
  induction pieces with
  | nil => exact absurd rfl h
  | cons first rest ih =>
    have hNe : rest ++ [piece] ≠ [] := List.append_ne_nil_of_right_ne_nil rest (List.cons_ne_nil _ _)
    rw [List.cons_append, glue_cons hNe]
    cases rest with
    | nil => rw [List.nil_append, glue_singleton, glue_singleton]
    | cons next rest =>
      rw [ih (List.cons_ne_nil _ _), glue_cons (List.cons_ne_nil _ _)]
      simp only [String.append_assoc]

/-- Cutting undoes gluing if no piece holds the separator. -/
theorem cut_glue {sep : Char} {pieces : List String} (hNe : pieces ≠ [])
    (h : ∀ p ∈ pieces, sep ∉ p.toList) : cut sep (glue sep pieces) = pieces := by
  have hLists : pieces.map String.toList ≠ [] := by
    intro hNil
    exact hNe (List.map_eq_nil_iff.mp hNil)
  have hId : String.ofList ∘ String.toList = id := funext fun _ => String.ofList_toList
  rw [cut, glue, String.toList_intercalate, String.toList_singleton,
    List.splitOn_intercalate sep ?_ hLists, List.map_map, hId, List.map_id]
  intro l hl
  obtain ⟨p, hp, rfl⟩ := List.mem_map.mp hl
  exact h p hp

theorem glue_injective {sep : Char} {pieces pieces' : List String} (hNe : pieces ≠ [])
    (hNe' : pieces' ≠ []) (h : ∀ p ∈ pieces, sep ∉ p.toList) (h' : ∀ p ∈ pieces', sep ∉ p.toList)
    (hGlue : glue sep pieces = glue sep pieces') : pieces = pieces' := by
  rw [← cut_glue hNe h, hGlue, cut_glue hNe' h']

/-- Texts that are the pieces of a text: there is at least one, the separator is in none of them,
and with it between them they are the text. -/
structure IsCut (sep : Char) (s : String) (pieces : List String) : Prop where
  ne_nil : pieces ≠ []
  apart : ∀ p ∈ pieces, sep ∉ p.toList
  glued : glue sep pieces = s

/-- **A text has one list of pieces**, and cutting finds it. -/
theorem isCut_iff {sep : Char} {s : String} {pieces : List String} :
    IsCut sep s pieces ↔ pieces = cut sep s := by
  constructor
  · rintro ⟨hNe, hApart, rfl⟩
    exact (cut_glue hNe hApart).symm
  · rintro rfl
    exact ⟨cut_ne_nil sep s, fun p hp => not_mem_of_mem_cut hp, glue_cut sep s⟩

/-- Gluing with another separator puts that one in the place of every old one. -/
theorem glue_cut_replace (a b : Char) (s : String) :
    glue b (cut a s) = s.map fun c => if c = a then b else c := by
  have hId : String.toList ∘ String.ofList = id := funext fun _ => String.toList_ofList
  apply String.ext
  rw [glue, cut, String.toList_intercalate, String.toList_singleton, List.map_map, hId, List.map_id,
    intercalate_splitOn_replace, String.toList_map]

/-! ### Occurrences -/

theorem occursIn_iff {part cs : List Char} : occursIn part cs = true ↔ part <:+: cs := by
  induction cs with
  | nil => simp [occursIn]
  | cons c cs ih =>
    rw [occursIn, Bool.or_eq_true, List.isPrefixOf_iff_prefix, ih, List.infix_cons_iff]

/-- A text occurs in another if that has something before it and something after it. -/
theorem occursIn_toList_iff {part s : String} :
    occursIn part.toList s.toList = true ↔ ∃ before after, s = before ++ part ++ after := by
  rw [occursIn_iff]
  constructor
  · rintro ⟨before, after, h⟩
    refine ⟨String.ofList before, String.ofList after, String.ext ?_⟩
    simpa using h.symm
  · rintro ⟨before, after, rfl⟩
    exact ⟨before.toList, after.toList, by simp⟩

end DesignSystem.Text
