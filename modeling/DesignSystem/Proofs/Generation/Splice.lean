import DesignSystem.Generation.Registry
import DesignSystem.Proofs.Generation.Slot
import DesignSystem.Proofs.Template.Library
import DesignSystem.Proofs.Text.Cut
import Mathlib.Tactic.Choose
/-!
# Fragments in generated files

Every skeleton is an outline: texts that are known of a component alone, with slots for its
fragments. This is found by reading the skeletons once (`outlined_skeleton`), and all that is said
of generated files follows from it. The two style sheets are short enough to be said exactly
(`render_stylesheet`, `render_module`).
-/

namespace DesignSystem

open Template

namespace Generation

/-! ### Skeletons -/

/-- A text is a template that is known but for the given slots. -/
def Outlined (slots : List Slot) (text : String) : Prop :=
  ∃ t, Template.read text = .ok t ∧ isOutline sketch Slot.part slots t = true

theorem outlined_of_spelled {slots : List Slot} {lines : List String} {cs : List Char}
    (hLines : Spelled lines cs) (h : isReadAs (isOutline sketch Slot.part slots) cs = true) :
    Outlined slots (Text.lines lines) :=
  exists_of_isReadAs hLines.toList_lines h

set_option maxRecDepth 20000 in
/-- Every skeleton is known but for its slots. -/
theorem outlined_skeleton : ∀ source ∈ Skeleton.sources,
    Outlined (slotsOf source.1) source.2 := by
  simp only [Skeleton.sources, List.forall_mem_cons, List.not_mem_nil, false_implies,
    implies_true, and_true]
  refine ⟨?_, ?_, ?_, ?_, ?_, ?_, ?_, ?_⟩
  all_goals
    apply outlined_of_spelled
    · repeat apply Spelled.cons String.toList_ofList
      exact Spelled.nil
    · decide +kernel

/-- The names and descriptions of files are known altogether. -/
theorem outlined_output (s : Strategy) :
    ∀ o ∈ s.outputs, Outlined [] o.fileName ∧ Outlined [] o.description := by
  cases s
  all_goals
    simp only [Strategy.outputs, List.forall_mem_cons, List.not_mem_nil, false_implies,
      implies_true, and_true]
    repeat' apply And.intro
  all_goals
    apply exists_of_isReadAs String.toList_ofList
    decide +kernel

/-! ### Files -/

/-- A name or a description comes out the same for all fragments. -/
theorem exists_renderText (c : Component) {text : String} (h : Outlined [] text) :
    ∃ s, ∀ f, Template.renderText text (c.describe f) = .ok s := by
  obtain ⟨t, hRead, hKnown⟩ := h
  rw [isOutline] at hKnown
  obtain ⟨s, hText⟩ := exists_renderParts_of_areKnown (describes_describe c) t hKnown
  refine ⟨s, ?_⟩
  intro f
  rw [Template.renderText, hRead]
  exact hText f

/-- A skeleton is filled as its template. -/
theorem render_skeleton {name text : String} (hMem : (name, text) ∈ Skeleton.sources)
    {t : Template} (hRead : Template.read text = .ok t) (data : Json) :
    Skeleton.library.render name data = t.render data := by
  have hNames : (Skeleton.sources.map Prod.fst).Nodup := by decide
  exact TemplateLibrary.render_ofList hNames hMem hRead data

/-- A skeleton comes out as one outline with the fragments written in. -/
theorem exists_render_skeleton (c : Component) {name : String}
    (hName : ∃ text, (name, text) ∈ Skeleton.sources) :
    ∃ outline, Outline.slots outline = slotsOf name ∧
      ∀ f, Skeleton.library.render name (c.describe f) = .ok (outline.write (·.text f)) := by
  obtain ⟨text, hMem⟩ := hName
  obtain ⟨t, hRead, hOutline⟩ := outlined_skeleton _ hMem
  obtain ⟨outline, hSlots, hWrite⟩ := exists_outline (describes_describe c)
    (fun s f => s.text f) (fun s f => renderPart_slot c s f) hOutline
  refine ⟨outline, hSlots, ?_⟩
  intro f
  rw [render_skeleton hMem hRead]
  exact hWrite f

theorem exists_source {s : Strategy} {o : Output} (ho : o ∈ s.outputs) :
    ∃ text, (o.skeleton, text) ∈ Skeleton.sources := by
  have hAll : ∀ o ∈ s.outputs, o.skeleton ∈ Skeleton.sources.map Prod.fst := by
    cases s <;> decide
  obtain ⟨source, hMem, hName⟩ := List.mem_map.1 (hAll o ho)
  exact ⟨source.2, hName ▸ hMem⟩

/-! ### Style sheets -/

/-- A template with a name at its beginning and the styles at its end. -/
def sheet (before name middle : String) : Template :=
  [.text before, .print (.variable name), .text middle, Slot.styles.part, .text "\n"]

theorem read_sheet {before name middle : String} {lines : List String} {cs : List Char}
    (hLines : Spelled lines cs)
    (h : isReadAs (sameParts (sheet before name middle)) cs = true) :
    Template.read (Text.lines lines) = .ok (sheet before name middle) := by
  obtain ⟨t, hRead, hSame⟩ := exists_of_isReadAs hLines.toList_lines h
  rw [hRead, eq_of_sameParts _ t hSame]

theorem render_sheet (c : Component) (f : Fragments) {name s : String} (before middle : String)
    (h : (scopeOf (c.describe f)).value name = .text s) :
    (sheet before name middle).render (c.describe f) =
      .ok (before ++ s ++ middle ++ Text.trim f.styles ++ "\n") := by
  have hName : renderPart (scopeOf (c.describe f)) (.print (.variable name)) = .ok s :=
    renderPart_print_text (by rw [eval, h])
  have hStyles : renderPart (scopeOf (c.describe f)) Slot.styles.part = .ok (Text.trim f.styles) :=
    renderPart_slot c .styles f
  have hEnd := renderParts_cons hStyles
    (renderParts_cons (renderPart_text _ "\n") (renderParts_nil _))
  have hAll := renderParts_cons (renderPart_text _ before)
    (renderParts_cons hName (renderParts_cons (renderPart_text _ middle) hEnd))
  rw [Template.render, sheet, hAll]
  simp only [String.append_empty, String.append_assoc]

/-- The style sheet of a native Angular component, exactly. -/
theorem render_stylesheet (c : Component) (f : Fragments) :
    Skeleton.library.render "native-angular/component.css" (c.describe f) =
      .ok (":host \x7b\n  display: " ++ c.interface.display ++ ";\n\x7d\n\n" ++
        Text.trim f.styles ++ "\n") := by
  have hMem : ("native-angular/component.css", Skeleton.NativeAngular.stylesheetText) ∈
    Skeleton.sources := List.mem_of_getElem? (i := 7) rfl
  have hRead : Template.read Skeleton.NativeAngular.stylesheetText =
      .ok (sheet ":host \x7b\n  display: " "display" ";\n\x7d\n\n") := by
    apply read_sheet
    · repeat apply Spelled.cons String.toList_ofList
      exact Spelled.nil
    · decide +kernel
  rw [render_skeleton hMem hRead]
  exact render_sheet c f _ _ rfl

/-- The style sheet of a native React component, exactly. -/
theorem render_module (c : Component) (f : Fragments) :
    Skeleton.library.render "native-react/module.css" (c.describe f) =
      .ok ("/* " ++ c.definition.name ++ ". Generated by dsforge. */\n\n" ++
        Text.trim f.styles ++ "\n") := by
  have hMem : ("native-react/module.css", Skeleton.NativeReact.moduleText) ∈ Skeleton.sources :=
    List.mem_of_getElem? (i := 4) rfl
  have hRead : Template.read Skeleton.NativeReact.moduleText =
      .ok (sheet "/* " "name" ". Generated by dsforge. */\n\n") := by
    apply read_sheet
    · repeat apply Spelled.cons String.toList_ofList
      exact Spelled.nil
    · decide +kernel
  rw [render_skeleton hMem hRead]
  exact render_sheet c f _ _ rfl

/-! ### Generated files -/

/-- The hooks that a view calls are those of the known ones whose name stands before a
parenthesis. -/
theorem mem_hooksIn_iff {view hook : String} : hook ∈ Component.hooksIn view ↔
    hook ∈ Component.hooks ∧ ∃ before after, view = before ++ (hook ++ "(") ++ after := by
  rw [Component.hooksIn, List.mem_filter, Text.occursIn_toList_iff]

theorem report?_register (r : Registry) (c : Component) (f : Fragments) (tokens : Tree) :
    (r.register c f).report? c tokens =
      some ⟨missingVariables f.styles tokens, files r.strategy c f⟩ := by
  have hRegistered : (r.register c f).fragments c = some f := if_pos rfl
  rw [Registry.report?, hRegistered, Option.map_some]
  rfl

/-- **Fragments are written into generated files as they stand.** The names, descriptions and outlines
of a component's files are there before its fragments and before any tokens. With fragments
registered, generating always comes to an end without an error, and each file is its outline with
the fragments written in at the slots. Both style sheets are given exactly, and so are the hooks that
the view of a React component is said to call. -/
theorem fragments_stand_as_written (r : Registry) (c : Component) :
    ∃ (name description : Output → String) (outline : Output → Outline Slot),
      (∀ o ∈ r.strategy.outputs, (outline o).slots = slotsOf o.skeleton) ∧
      (∀ (f : Fragments) (tokens : Tree), (r.register c f).report? c tokens =
        some ⟨missingVariables f.styles tokens, .ok (r.strategy.outputs.map fun o =>
          ⟨name o, (outline o).write (·.text f), o.language, description o⟩)⟩) ∧
      (∀ o ∈ r.strategy.outputs, o.skeleton = "native-angular/component.css" →
        ∀ f : Fragments, (outline o).write (·.text f) =
          ":host \x7b\n  display: " ++ c.interface.display ++ ";\n\x7d\n\n" ++
            Text.trim f.styles ++ "\n") ∧
      (∀ o ∈ r.strategy.outputs, o.skeleton = "native-react/module.css" →
        ∀ f : Fragments, (outline o).write (·.text f) =
          "/* " ++ c.definition.name ++ ". Generated by dsforge. */\n\n" ++
            Text.trim f.styles ++ "\n") ∧
      ∀ view hook, hook ∈ Component.hooksIn view ↔
        hook ∈ ["useState", "useEffect", "useMemo", "useRef"] ∧
          ∃ before after, view = before ++ (hook ++ "(") ++ after := by
  have hOutputs := outlined_output r.strategy
  choose! name hName using fun o (ho : o ∈ r.strategy.outputs) =>
    exists_renderText c (hOutputs o ho).1
  choose! description hDescription using fun o (ho : o ∈ r.strategy.outputs) =>
    exists_renderText c (hOutputs o ho).2
  choose! outline hSlots hContent using fun o (ho : o ∈ r.strategy.outputs) =>
    exists_render_skeleton c (exists_source ho)
  refine ⟨name, description, outline, hSlots, fun f tokens => ?_, fun o ho hSheet f => ?_,
    fun o ho hSheet f => ?_, fun view hook => mem_hooksIn_iff⟩
  · have hFill : ∀ o ∈ r.strategy.outputs, fill (c.describe f) o =
        .ok ⟨name o, (outline o).write (·.text f), o.language, description o⟩ := by
      intro o ho
      rw [fill, hName o ho f, hContent o ho f, hDescription o ho f]
      rfl
    rw [report?_register, files, mapM_eq_ok_map hFill]
  · have h := hContent o ho f
    rw [hSheet, render_stylesheet] at h
    exact (Except.ok.inj h).symm
  · have h := hContent o ho f
    rw [hSheet, render_module] at h
    exact (Except.ok.inj h).symm

/-- Fragments whose styles look like a gap, a tag and a comment. -/
def bracedFragments : Fragments :=
  ⟨"\x7b\x7b a \x7d\x7d \x7b% b %\x7d \x7b# c #\x7d", "", "", "", none, none⟩

theorem braces_in_styles_stay : ∃ files,
    ((Registry.empty .nativeAngular).register .badge bracedFragments).report? .badge Tree.empty =
      some ⟨[], .ok files⟩ ∧
    ∃ file ∈ files, file.content =
      ":host \x7b\n  display: inline-flex;\n\x7d\n\n" ++ bracedFragments.styles ++ "\n" := by
  obtain ⟨name, description, outline, -, hFiles, hSheet, -, -⟩ :=
    fragments_stand_as_written (Registry.empty .nativeAngular) .badge
  have hMissing : missingVariables bracedFragments.styles Tree.empty = [] := by decide
  have hTrim : Text.trim bracedFragments.styles = bracedFragments.styles := by decide
  have hReport := hFiles bracedFragments Tree.empty
  have hContent := hSheet _ (List.mem_cons_of_mem _ List.mem_cons_self) rfl bracedFragments
  rw [hMissing] at hReport
  rw [hTrim] at hContent
  exact ⟨_, hReport, _,
    List.mem_map.2 ⟨_, List.mem_cons_of_mem _ List.mem_cons_self, rfl⟩, hContent⟩

end Generation

end DesignSystem
