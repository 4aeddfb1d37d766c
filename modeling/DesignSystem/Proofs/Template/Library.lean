import DesignSystem.Template.Library
import DesignSystem.Proofs.Template.Outline
/-!
# Templates that are written in a program

The text of a template in a program is a list of lines. Such a text can be read by computation
alone: its characters are those of the lines (`Spelled`), and `read` looks at nothing else
(`exists_read_of_spelled`). A library of texts that all are templates gives each of them back
(`render_ofList`).
-/

namespace DesignSystem

namespace Template

/-! ### Reading lines -/

/-- The template of a text that is given by its characters. -/
def readChars (cs : List Char) : Except Error Template :=
  match ((lexemesFrom cs (.outside [] true .nothing) []).map List.reverse).bind fun lexemes =>
      lexemes.foldlM step ([], []) with
  | some (parts, []) => .ok parts.reverse
  | _ => .error .malformed

theorem read_eq_readChars (s : String) : read s = readChars s.toList :=
  rfl

/-- The characters of lines with their line breaks. The lines of a program come as texts whose
characters have to be found first, which one line at a time is quick. -/
inductive Spelled : List String → List Char → Prop
  | nil : Spelled [] []
  | cons {line : String} {lines : List String} {cs rest : List Char} :
      line.toList = cs → Spelled lines rest → Spelled (line :: lines) (cs ++ '\n' :: rest)

theorem Spelled.toList_lines {lines : List String} {cs : List Char} (h : Spelled lines cs) :
    (Text.lines lines).toList = cs := by
  induction h with
  | nil => rfl
  | cons hLine _ ih => simp [Text.lines, ← ih, ← hLine]

/-- Whether characters are those of a template that a check accepts. -/
def isReadAs (accepts : Template → Bool) (cs : List Char) : Bool :=
  match readChars cs with
  | .ok t => accepts t
  | .error _ => false

theorem exists_of_isReadAs {accepts : Template → Bool} {s : String} {cs : List Char}
    (hChars : s.toList = cs) (h : isReadAs accepts cs = true) :
    ∃ t, read s = .ok t ∧ accepts t = true := by
  rw [read_eq_readChars, hChars]
  unfold isReadAs at h
  split at h
  · rename_i t hRead
    exact ⟨t, hRead, h⟩
  · cases h

end Template

/-! ### Libraries -/

namespace TemplateLibrary

/-- The library after one more text, whether or not that is a template. -/
def addIfRead (l : TemplateLibrary) (source : String × String) : TemplateLibrary :=
  (l.add source.1 source.2).toOption.getD l

theorem ofList_eq_foldl (sources : List (String × String)) :
    ofList sources = sources.foldl addIfRead empty :=
  rfl

theorem get?_addIfRead (l : TemplateLibrary) {name text : String} {t : Template}
    (hRead : Template.read text = .ok t) :
    Keyed.get? (l.addIfRead (name, text)).templates name = some t := by
  simp only [addIfRead, add, hRead, bind, Except.bind, pure, Except.pure, Except.toOption,
    Option.getD_some]
  rw [Keyed.get?_set, if_pos rfl]

/-- A text under another name leaves a template as it was. -/
theorem get?_addIfRead_of_ne (l : TemplateLibrary) {source : String × String} {name : String}
    (h : source.1 ≠ name) :
    Keyed.get? (l.addIfRead source).templates name = Keyed.get? l.templates name := by
  unfold addIfRead add
  cases Template.read source.2 with
  | ok t => exact (Keyed.get?_set ..).trans (if_neg h)
  | error e => rfl

theorem get?_foldl_of_forall_ne (l : TemplateLibrary) {sources : List (String × String)}
    {name : String} (h : ∀ source ∈ sources, source.1 ≠ name) :
    Keyed.get? (sources.foldl addIfRead l).templates name = Keyed.get? l.templates name := by
  induction sources generalizing l with
  | nil => rfl
  | cons source rest ih =>
    rw [List.foldl_cons, ih _ fun s hs => h s (List.mem_cons_of_mem _ hs),
      get?_addIfRead_of_ne l (h source List.mem_cons_self)]

theorem get?_foldl_of_mem (l : TemplateLibrary) {sources : List (String × String)}
    (hNames : (sources.map Prod.fst).Nodup) {name text : String} (hMem : (name, text) ∈ sources)
    {t : Template} (hRead : Template.read text = .ok t) :
    Keyed.get? (sources.foldl addIfRead l).templates name = some t := by
  induction sources generalizing l with
  | nil => cases hMem
  | cons source rest ih =>
    rw [List.map_cons, List.nodup_cons] at hNames
    rw [List.foldl_cons]
    rcases List.mem_cons.1 hMem with rfl | hRest
    · have hOther : ∀ s ∈ rest, s.1 ≠ name :=
        fun s hs hEq => hNames.1 (List.mem_map.2 ⟨s, hs, hEq⟩)
      rw [get?_foldl_of_forall_ne _ hOther, get?_addIfRead l hRead]
    · exact ih _ hNames.2 hRest

/-- **A library of texts under different names gives the template of each.** -/
theorem render_ofList {sources : List (String × String)} (hNames : (sources.map Prod.fst).Nodup)
    {name text : String} (hMem : (name, text) ∈ sources) {t : Template}
    (hRead : Template.read text = .ok t) (data : Json) :
    (ofList sources).render name data = t.render data := by
  rw [render, ofList_eq_foldl, get?_foldl_of_mem empty hNames hMem hRead]

end TemplateLibrary

end DesignSystem
