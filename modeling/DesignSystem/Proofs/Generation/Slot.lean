import DesignSystem.Component.Description
import DesignSystem.Proofs.Template.Filter
import DesignSystem.Proofs.Template.Outline
/-!
# Slots for fragments

A skeleton is filled with the description of a component. What the description says of the fragments
is read in a few places only, the slots, and all else in it is known before there are any fragments:

* a slot prints what the fragments write there (`Slot.text`), whatever that looks like
  (`renderPart_slot`);
* all other names have values of their own, the same for all fragments (`describes_describe`).
-/

namespace DesignSystem

open Template

namespace Generation

/-! ### Slots -/

/-- A place in a skeleton where something of the fragments comes in. -/
inductive Slot where
  | styles
  | element
  | elementMembers
  | hooks
  | reactView
  | angularView
  | angularMembers
  deriving DecidableEq

/-- What is written of members: nothing if they are missing or empty, and else their lines in a
block of their own. -/
def membersText : Option String → String
  | none => ""
  | some members =>
    if members = "" then "" else "\n  " ++ indented 2 (Text.trim members) ++ "\n"

/-- The line that imports hooks, if there are any. -/
def hooksText (hooks : List String) : String :=
  if hooks = [] then "" else "import \x7b " ++ ", ".intercalate hooks ++ " \x7d from 'react';\n"

/-- What fragments write at a slot. -/
def Slot.text (s : Slot) (f : Fragments) : String :=
  match s with
  | .styles => Text.trim f.styles
  | .element => indented 6 (Text.trim f.element)
  | .elementMembers => membersText f.elementMembers
  | .hooks => hooksText (Component.hooksIn f.reactView)
  | .reactView => indented 2 (Text.trim f.reactView)
  | .angularView => indented 4 (Text.trim f.angularView)
  | .angularMembers => membersText f.angularMembers

/-- The slots of a skeleton in order. -/
def slotsOf (skeleton : String) : List Slot :=
  match skeleton with
  | "web-component/element.ts" => [.styles, .elementMembers, .element]
  | "native-react/component.tsx" => [.hooks, .reactView]
  | "native-react/module.css" | "native-angular/component.css" => [.styles]
  | "native-angular/component.ts" => [.angularView, .angularMembers]
  | _ => []

/-! ### Slots in templates -/

/-- A name with the blanks around its text taken away. -/
def trimmed (name : String) : Expr :=
  .filter (.variable name) "trim" [] []

/-- A name with the blanks around its text taken away and its lines indented. -/
def trimmedLines (name : String) (width : Nat) : Expr :=
  .filter (trimmed name) "indent" [.literal (.number (.int width))] []

/-- The part of a template that prints an expression between two texts, if a name has a value that
counts as true. -/
def blockPart (name before : String) (e : Expr) (after : String) : Part :=
  .choice (.variable name) [.text before, .print e, .text after] []

/-- The part of a template that writes members. -/
def membersPart (name : String) : Part :=
  blockPart name "\n  " (trimmedLines name 2) "\n"

/-- The part of a template that is a slot. -/
def Slot.part : Slot → Part
  | styles => .print (trimmed "styles")
  | element => .print (trimmedLines "element" 6)
  | elementMembers => membersPart "members_wc"
  | hooks =>
    let names := .filter (.variable "react_hooks") "join" [.literal (.text ", ")] []
    blockPart "react_hooks" "import \x7b " names " \x7d from 'react';\n"
  | reactView => .print (trimmedLines "view_jsx" 2)
  | angularView => .print (trimmedLines "view_ng" 4)
  | angularMembers => membersPart "members_ng"

/-! ### Descriptions -/

/-- What is known of a property of a component. -/
def propertyShape : Shape :=
  .record [("name", .defined), ("attr", .defined), ("kind", .defined), ("ts_type", .defined),
    ("default", .defined), ("options", .list .defined)]

/-- What is known of an event of a component. -/
def eventShape : Shape :=
  .record [("name", .defined), ("dom_event", .defined), ("selector", .defined),
    ("detail_type", .defined), ("detail", .defined), ("effect", .defined),
    ("custom_event", .defined), ("handler", .defined)]

/-- What is known of the description of a component, whatever its fragments. -/
def sketch : Sketch :=
  [("props", .list propertyShape), ("events", .list eventShape),
    ("angular_lifecycle", .list .defined), ("id", .defined), ("name", .defined),
    ("description", .defined), ("category", .defined), ("pascal", .defined), ("kebab", .defined),
    ("tag", .defined), ("selector", .defined), ("class_name", .defined), ("display", .defined),
    ("slot", .defined), ("has_text", .defined)]

theorem ofItems_eq_map (items : List Json) : Value.ofItems items = items.map Value.ofJson := by
  induction items with
  | nil => rfl
  | cons j rest ih => rw [Value.ofItems, ih, List.map_cons]

/-- A list of documents that have a shape. -/
theorem fits_list {α : Type} {shape : Shape} {describe : α → Json} {l : List α}
    (h : ∀ a ∈ l, shape.Fits (.ofJson (describe a))) :
    (Shape.list shape).Fits (.ofJson (.array (l.map describe))) := by
  rw [Value.ofJson, ofItems_eq_map, List.map_map]
  refine .list ?_
  intro v hv
  obtain ⟨a, ha, rfl⟩ := List.mem_map.1 hv
  exact h a ha

theorem fits_textList (l : List String) :
    (Shape.list .defined).Fits (.ofJson (Component.textList l)) :=
  fits_list fun _ _ => .defined nofun

theorem fits_optionalText (s : Option String) :
    Shape.defined.Fits (.ofJson (Component.optionalText s)) := by
  cases s <;> exact .defined nofun

theorem fits_property (p : Component.Property) :
    propertyShape.Fits (.ofJson p.describe) := by
  refine .record nofun ?_
  simp only [List.forall_mem_cons, List.not_mem_nil, false_implies, implies_true, and_true]
  exact ⟨.defined nofun, .defined nofun, .defined nofun, .defined nofun, .defined nofun,
    fits_textList p.kind.options⟩

theorem fits_event (e : Component.Event) : eventShape.Fits (.ofJson e.describe) := by
  refine .record nofun ?_
  simp only [List.forall_mem_cons, List.not_mem_nil, false_implies, implies_true, and_true]
  exact ⟨.defined nofun, .defined nofun, .defined nofun, .defined nofun, .defined nofun,
    fits_optionalText e.effect, .defined nofun, .defined nofun⟩

theorem describes_describe (c : Component) :
    sketch.Describes fun f => scopeOf (c.describe f) := by
  apply Sketch.describes_of_forall
  simp only [sketch, List.forall_mem_cons, List.not_mem_nil, false_implies, implies_true, and_true]
  refine ⟨⟨_, fits_list fun p _ => fits_property p, fun _ => rfl⟩,
    ⟨_, fits_list fun e _ => fits_event e, fun _ => rfl⟩,
    ⟨_, fits_textList (Component.lifecycle c.interface), fun _ => rfl⟩,
    ?_, ?_, ?_, ?_, ?_, ?_, ?_, ?_, ?_, ?_, ?_, ?_⟩
  -- All other names stand for texts and truth values.
  all_goals
    refine ⟨_, ?_, fun _ => rfl⟩
    exact .defined nofun

/-! ### What slots print -/

theorem eval_trimmed {scope : Scope} {name s : String} (h : scope.value name = .text s) :
    eval scope (trimmed name) = .ok (.text (Text.trim s)) := by
  rw [trimmed, eval, eval, h]
  exact applyFilter_trim s

theorem eval_trimmedLines {scope : Scope} {name s : String} (h : scope.value name = .text s)
    (width : Nat) :
    eval scope (trimmedLines name width) = .ok (.text (indented width (Text.trim s))) := by
  rw [trimmedLines, eval, eval_trimmed h, ← indent_trim]
  simp only [bind, Except.bind, evalAll, eval, pure, Except.pure]
  exact applyFilter_indent (Text.trim s) width

theorem renderPart_print_text {scope : Scope} {e : Expr} {s : String}
    (h : eval scope e = .ok (.text s)) : renderPart scope (.print e) = .ok s :=
  renderPart_print h nofun

theorem renderPart_blockPart {scope : Scope} {name before after s : String} {e : Expr} {v : Value}
    (hv : scope.value name = v) (hDefined : v ≠ .undefined)
    (he : v.isTrue = true → eval scope e = .ok (.text s)) :
    renderPart scope (blockPart name before e after) =
      .ok (if v.isTrue then before ++ s ++ after else "") := by
  have hDecide : v.decide = .ok v.isTrue := (Shape.Fits.defined hDefined).decide_eq
  rw [blockPart, renderPart, eval, hv]
  simp only [bind, Except.bind, hDecide]
  by_cases hTrue : v.isTrue = true
  · have hEnd := renderParts_cons (renderPart_text scope after) (renderParts_nil scope)
    have hText := renderParts_cons (renderPart_print_text (he hTrue)) hEnd
    rw [if_pos hTrue, if_pos hTrue, renderParts_cons (renderPart_text scope before) hText]
    simp only [String.append_empty, String.append_assoc]
  · rw [if_neg hTrue, if_neg hTrue, renderParts_nil]

theorem renderPart_membersPart {scope : Scope} {name : String} {members : Option String}
    (h : scope.value name = .ofJson (Component.optionalText members)) :
    renderPart scope (membersPart name) = .ok (membersText members) := by
  cases members with
  | none => exact renderPart_blockPart (s := "") h nofun nofun
  | some s =>
    rw [membersPart, renderPart_blockPart h nofun fun _ => eval_trimmedLines h 2]
    by_cases hEmpty : s = ""
    · subst hEmpty
      rfl
    · have hTrue : (Value.ofJson (Component.optionalText (some s))).isTrue = true := by
        simpa [Component.optionalText, Value.ofJson, Value.isTrue] using hEmpty
      rw [if_pos hTrue, membersText, if_neg hEmpty]

theorem renderPart_hooks {scope : Scope} {hooks : List String}
    (h : scope.value "react_hooks" = .ofJson (Component.textList hooks)) :
    renderPart scope Slot.hooks.part = .ok (hooksText hooks) := by
  have hDefined : Value.list (hooks.map .text) ≠ .undefined := nofun
  have hValue : Value.ofJson (Component.textList hooks) = .list (hooks.map .text) := by
    rw [Component.textList, Value.ofJson, ofItems_eq_map, List.map_map]
    rfl
  rw [hValue] at h
  have hJoin : eval scope (.filter (.variable "react_hooks") "join" [.literal (.text ", ")] []) =
      .ok (.text (", ".intercalate hooks)) := by
    rw [eval, eval, h]
    exact applyFilter_join ", " hooks
  rw [Slot.part, renderPart_blockPart h hDefined fun _ => hJoin]
  cases hooks <;> rfl

/-- A slot prints what the fragments write there, as it stands. -/
theorem renderPart_slot (c : Component) (s : Slot) (f : Fragments) :
    renderPart (scopeOf (c.describe f)) s.part = .ok (s.text f) := by
  cases s with
  | styles =>
    have h : (scopeOf (c.describe f)).value "styles" = .text f.styles := rfl
    exact renderPart_print_text (eval_trimmed h)
  | element =>
    have h : (scopeOf (c.describe f)).value "element" = .text f.element := rfl
    exact renderPart_print_text (eval_trimmedLines h 6)
  | elementMembers =>
    have h : (scopeOf (c.describe f)).value "members_wc" =
      .ofJson (Component.optionalText f.elementMembers) := rfl
    exact renderPart_membersPart h
  | hooks =>
    have h : (scopeOf (c.describe f)).value "react_hooks" =
      .ofJson (Component.textList (Component.hooksIn f.reactView)) := rfl
    exact renderPart_hooks h
  | reactView =>
    have h : (scopeOf (c.describe f)).value "view_jsx" = .text f.reactView := rfl
    exact renderPart_print_text (eval_trimmedLines h 2)
  | angularView =>
    have h : (scopeOf (c.describe f)).value "view_ng" = .text f.angularView := rfl
    exact renderPart_print_text (eval_trimmedLines h 4)
  | angularMembers =>
    have h : (scopeOf (c.describe f)).value "members_ng" =
      .ofJson (Component.optionalText f.angularMembers) := rfl
    exact renderPart_membersPart h

end Generation

end DesignSystem
