import DesignSystem.Template.Render
/-!
# What templates print of what is known

A sketch gives shapes to some names: a value is defined, or a list with items of a shape, or has
fields with shapes of their own. Scopes that give the names of a sketch the same values of these
shapes may differ in all else. What looks at the names of the sketch alone is known:

* **a known expression has the same value in all of the scopes** (`exists_eval_of_shape?`), and a
  shape that can be computed;
* **known parts of a template come out as the same text in all of the scopes, and without error**
  (`exists_renderParts_of_areKnown`).

The scopes are given as a family, since what is said is about all of them at once: under the names
of a loop each scope grows by the same values.
-/

namespace DesignSystem.Template

/-! ### Shapes -/

/-- What is known of a value. -/
inductive Shape where
  | defined
  | list (item : Shape)
  | record (fields : List (String × Shape))

/-- A value has a shape. -/
inductive Shape.Fits : Shape → Value → Prop
  | defined {v : Value} : v ≠ .undefined → Fits .defined v
  | list {item : Shape} {items : List Value} :
      (∀ v ∈ items, Fits item v) → Fits (.list item) (.list items)
  | record {fields : List (String × Shape)} {v : Value} : v ≠ .undefined →
      (∀ f ∈ fields, Fits f.2 (v.field f.1)) → Fits (.record fields) v

theorem Shape.Fits.ne_undefined {shape : Shape} {v : Value} (h : shape.Fits v) :
    v ≠ .undefined := by
  cases h with
  | defined h => exact h
  | list _ => exact nofun
  | record h _ => exact h

theorem Value.defined_of_ne {v : Value} (h : v ≠ .undefined) : v.defined = .ok v := by
  cases v <;> first | rfl | exact absurd rfl h

theorem Shape.Fits.defined_eq {shape : Shape} {v : Value} (h : shape.Fits v) :
    v.defined = .ok v :=
  Value.defined_of_ne h.ne_undefined

theorem Shape.Fits.decide_eq {shape : Shape} {v : Value} (h : shape.Fits v) :
    v.decide = .ok v.isTrue := by
  rw [Value.decide, h.defined_eq]
  rfl

/-- The shape of what a loop says about itself. -/
def position : Shape :=
  .record [("last", .defined)]

theorem fits_position (items : List Value) (k : Nat) : position.Fits (positionOf items k) := by
  refine .record nofun ?_
  intro f hf
  rw [List.mem_singleton.1 hf]
  exact .defined nofun

/-! ### Sketches -/

/-- The shapes of some names. -/
abbrev Sketch := List (String × Shape)

variable {ι : Type}

/-- In all of the scopes the names of a sketch have the same values, which have their shapes. -/
def Sketch.Describes (known : Sketch) (scopes : ι → Scope) : Prop :=
  ∀ name shape, known.lookup name = some shape →
    ∃ v, shape.Fits v ∧ ∀ i, (scopes i).value name = v

theorem mem_of_lookup {known : Sketch} {name : String} {shape : Shape}
    (h : known.lookup name = some shape) : (name, shape) ∈ known := by
  obtain ⟨before, after, rfl, -⟩ := List.lookup_eq_some_iff.1 h
  exact List.mem_append_right _ List.mem_cons_self

theorem Sketch.describes_of_forall {known : Sketch} {scopes : ι → Scope}
    (h : ∀ x ∈ known, ∃ v, x.2.Fits v ∧ ∀ i, (scopes i).value x.1 = v) :
    known.Describes scopes :=
  fun _ _ hLookup => h _ (mem_of_lookup hLookup)

theorem Scope.value_cons (x : String) (v : Value) (scope : Scope) (name : String) :
    Scope.value ((x, v) :: scope) name = if name = x then v else scope.value name := by
  by_cases h : name = x
  · simp [Scope.value, h]
  · simp [Scope.value, List.lookup_cons, h, beq_false_of_ne h]

/-- All of the scopes may have one more name with the same value. -/
theorem Sketch.Describes.cons {known : Sketch} {scopes : ι → Scope} (h : known.Describes scopes)
    (x : String) {shape : Shape} {v : Value} (hv : shape.Fits v) :
    Sketch.Describes ((x, shape) :: known) fun i => (x, v) :: scopes i := by
  intro name found hFound
  by_cases hName : name = x
  · subst hName
    rw [List.lookup_cons, beq_self_eq_true] at hFound
    cases hFound
    exact ⟨v, hv, fun i => by rw [Scope.value_cons, if_pos rfl]⟩
  · rw [List.lookup_cons, beq_false_of_ne hName] at hFound
    obtain ⟨w, hw, hSame⟩ := h name found hFound
    exact ⟨w, hw, fun i => by rw [Scope.value_cons, if_neg hName, hSame i]⟩

/-! ### Known expressions -/

/-- The shape of an expression, if it looks at nothing but names of a sketch and has a value for
sure. -/
def Expr.shape? (known : Sketch) : Expr → Option Shape
  | .literal v => if v.isUndefined then none else some .defined
  | .variable name => known.lookup name
  | .field base name => match base.shape? known with
    | some (.record fields) => fields.lookup name
    | _ => none
  | .compare .equal left right => match left.shape? known, right.shape? known with
    | some _, some _ => some .defined
    | _, _ => none
  | .negate operand => match operand.shape? known with
    | some _ => some .defined
    | none => none
  | .either left right => match left.shape? known, right.shape? known with
    | some _, some _ => some .defined
    | _, _ => none
  | _ => none

/-- **A known expression has the same value in all of the scopes.** -/
theorem exists_eval_of_shape? {known : Sketch} {scopes : ι → Scope} (h : known.Describes scopes)
    {e : Expr} {shape : Shape} (hShape : e.shape? known = some shape) :
    ∃ v, shape.Fits v ∧ ∀ i, eval (scopes i) e = .ok v := by
  fun_induction Expr.shape? known e generalizing shape with
  | case1 v hv => cases hShape
  | case2 v hv =>
    cases hShape
    exact ⟨v, .defined fun hEq => hv (hEq ▸ rfl), fun i => by rw [eval]⟩
  | case3 name =>
    obtain ⟨v, hv, hSame⟩ := h name shape hShape
    exact ⟨v, hv, fun i => by rw [eval, hSame i]⟩
  | case4 base name fields hBase ih =>
    obtain ⟨v, hv, hEval⟩ := ih hBase
    cases hv with
    | record hDefined hFields =>
      refine ⟨v.field name, hFields (name, shape) (mem_of_lookup hShape), ?_⟩
      intro i
      rw [eval, hEval i]
      simp only [bind, Except.bind, Value.defined_of_ne hDefined, pure, Except.pure]
  | case5 base name hBase ih => cases hShape
  | case6 left right a b hRight hLeft ihLeft ihRight =>
    cases hShape
    obtain ⟨v, -, hv⟩ := ihLeft hLeft
    obtain ⟨w, -, hw⟩ := ihRight hRight
    refine ⟨.bool (v.same w), .defined nofun, ?_⟩
    intro i
    rw [eval, hv i, hw i]
    rfl
  | case7 left right hNot ihLeft ihRight => cases hShape
  | case8 operand a hOperand ih =>
    cases hShape
    obtain ⟨v, hv, hEval⟩ := ih hOperand
    refine ⟨.bool !v.isTrue, .defined nofun, ?_⟩
    intro i
    rw [eval, hEval i]
    simp only [bind, Except.bind, hv.decide_eq, pure, Except.pure]
  | case9 operand hOperand ih => cases hShape
  | case10 left right a b hRight hLeft ihLeft ihRight =>
    cases hShape
    obtain ⟨v, hv, hEvalLeft⟩ := ihLeft hLeft
    obtain ⟨w, hw, hEvalRight⟩ := ihRight hRight
    by_cases hTrue : v.isTrue = true
    · refine ⟨v, .defined hv.ne_undefined, ?_⟩
      intro i
      rw [eval, hEvalLeft i]
      simp only [bind, Except.bind, hv.decide_eq, hTrue, if_true, pure, Except.pure]
    · refine ⟨w, .defined hw.ne_undefined, ?_⟩
      intro i
      rw [eval, hEvalLeft i]
      simp only [bind, Except.bind, hv.decide_eq, if_neg hTrue, hEvalRight i]
  | case11 left right hNot ihLeft ihRight => cases hShape
  | case12 e => cases hShape

/-! ### Parts one after the other -/

theorem renderParts_nil (scope : Scope) : renderParts scope [] = .ok "" := by
  rw [renderParts]

theorem renderParts_cons {scope : Scope} {p : Part} {rest : List Part} {s more : String}
    (h : renderPart scope p = .ok s) (hRest : renderParts scope rest = .ok more) :
    renderParts scope (p :: rest) = .ok (s ++ more) := by
  rw [renderParts, h, hRest]
  rfl

theorem renderPart_text (scope : Scope) (s : String) : renderPart scope (.text s) = .ok s := by
  rw [renderPart]

theorem renderPart_print {scope : Scope} {e : Expr} {v : Value} (h : eval scope e = .ok v)
    (hDefined : v ≠ .undefined) : renderPart scope (.print e) = .ok v.write := by
  rw [renderPart, h]
  simp only [bind, Except.bind, Value.defined_of_ne hDefined, pure, Except.pure]

/-! ### Known parts -/

mutual

/-- Whether a part looks at nothing but names of a sketch and comes out for sure. -/
def Part.isKnown (known : Sketch) : Part → Bool
  | .text _ => true
  | .print e => (e.shape? known).isSome
  | .choice condition yes no =>
    (condition.shape? known).isSome && areKnown known yes && areKnown known no
  | .each (.whole x) items (.literal (.bool true)) body otherwise =>
    match items.shape? known with
    | some (.list item) =>
      areKnown ((x, item) :: ("loop", position) :: known) body && areKnown known otherwise
    | _ => false
  | .each .. => false

/-- Whether parts look at nothing but names of a sketch and come out for sure. -/
def areKnown (known : Sketch) : List Part → Bool
  | [] => true
  | p :: rest => p.isKnown known && areKnown known rest

end

/-- What is known of a loop whose text is known. -/
theorem exists_of_isKnown_each {known : Sketch} {target : Target} {items condition : Expr}
    {body otherwise : List Part}
    (h : (Part.each target items condition body otherwise).isKnown known = true) :
    ∃ x item, target = .whole x ∧ condition = .literal (.bool true) ∧
      items.shape? known = some (.list item) ∧
      areKnown ((x, item) :: ("loop", position) :: known) body = true ∧
      areKnown known otherwise = true := by
  rw [Part.isKnown.eq_def] at h
  split at h
  case h_4 x e _ _ hEach =>
    cases hEach
    split at h
    · rename_i item hItem
      rw [Bool.and_eq_true] at h
      exact ⟨x, item, rfl, rfl, hItem, h.1, h.2⟩
    · cases h
  all_goals simp_all

/-- Steps that each give the same in all members of a family give the same one after the other. -/
theorem exists_mapM_of_forall {α β ε : Type} {f : ι → α → Except ε β} {l : List α}
    (h : ∀ a ∈ l, ∃ b, ∀ i, f i a = .ok b) : ∃ bs, ∀ i, l.mapM (f i) = .ok bs := by
  induction l with
  | nil => exact ⟨[], fun i => rfl⟩
  | cons a rest ih =>
    obtain ⟨b, hb⟩ := h a List.mem_cons_self
    obtain ⟨bs, hbs⟩ := ih fun a' ha => h a' (List.mem_cons_of_mem _ ha)
    refine ⟨b :: bs, ?_⟩
    intro i
    rw [List.mapM_cons, hb i, hbs i]
    rfl

theorem mapM_eq_ok_map {α β ε : Type} {f : α → Except ε β} {g : α → β} {l : List α}
    (h : ∀ a ∈ l, f a = .ok (g a)) : l.mapM f = .ok (l.map g) := by
  induction l with
  | nil => rfl
  | cons a rest ih =>
    rw [List.mapM_cons, h a List.mem_cons_self, ih fun a' ha => h a' (List.mem_cons_of_mem _ ha)]
    rfl

/-- A loop without a condition admits every item. -/
theorem mapM_admitted? (scope : Scope) (x : String) (items : List Value) :
    items.mapM (admitted? scope (.whole x) (.literal (.bool true))) =
      .ok (items.map fun v => some ([(x, v)], v)) :=
  mapM_eq_ok_map fun _ _ => rfl

/-- The scopes in which a loop fills its body when it admits every item. -/
theorem loopScopes_map (scope : Scope) (x : String) (items : List Value) :
    loopScopes scope (items.map fun v => ([(x, v)], v)) =
      items.zipIdx.map fun (v, k) => (x, v) :: ("loop", positionOf items k) :: scope := by
  simp [loopScopes, List.zipIdx_map, Function.comp_def]

/-- A loop without a condition fills its body once for every item. -/
theorem renderPart_each {scope : Scope} {x : String} {e : Expr} {items : List Value}
    {body otherwise : List Part} (h : eval scope e = .ok (.list items)) :
    renderPart scope (.each (.whole x) e (.literal (.bool true)) body otherwise) =
      if items = [] then renderParts scope otherwise
      else do
        let texts ← items.zipIdx.mapM fun (v, k) =>
          renderParts ((x, v) :: ("loop", positionOf items k) :: scope) body
        return String.join texts := by
  have hItems : (items.map fun v => some ([(x, v)], v)).filterMap id =
      items.map fun v => ([(x, v)], v) := by
    simp [List.filterMap_map]
  rw [renderPart, h]
  simp only [bind, Except.bind, Value.defined, Value.items, Value.items?, mapM_admitted?, hItems]
  cases items with
  | nil => rfl
  | cons v rest =>
    rw [if_neg (List.cons_ne_nil _ _)]
    have hScopes := loopScopes_map scope x (v :: rest)
    rw [List.map_cons] at hScopes ⊢
    simp only [hScopes, List.mapM_map]
    rfl

mutual

/-- A known part comes out as the same text in all of the scopes. -/
theorem exists_renderPart_of_isKnown {known : Sketch} {scopes : ι → Scope}
    (h : known.Describes scopes) : (p : Part) → p.isKnown known = true →
    ∃ text, ∀ i, renderPart (scopes i) p = .ok text
  | .text s, _ => ⟨s, fun i => renderPart_text _ s⟩
  | .print e, hp => by
    obtain ⟨shape, hShape⟩ := Option.isSome_iff_exists.1 hp
    obtain ⟨v, hv, hEval⟩ := exists_eval_of_shape? h hShape
    exact ⟨v.write, fun i => renderPart_print (hEval i) hv.ne_undefined⟩
  | .choice condition yes no, hp => by
    simp only [Part.isKnown, Bool.and_eq_true, Option.isSome_iff_exists] at hp
    obtain ⟨⟨⟨shape, hShape⟩, hYes⟩, hNo⟩ := hp
    obtain ⟨v, hv, hEval⟩ := exists_eval_of_shape? h hShape
    obtain ⟨yesText, hYesText⟩ := exists_renderParts_of_areKnown h yes hYes
    obtain ⟨noText, hNoText⟩ := exists_renderParts_of_areKnown h no hNo
    by_cases hTrue : v.isTrue = true
    · refine ⟨yesText, ?_⟩
      intro i
      rw [renderPart, hEval i]
      simp only [bind, Except.bind, hv.decide_eq, hTrue, if_true, hYesText i]
    · refine ⟨noText, ?_⟩
      intro i
      rw [renderPart, hEval i]
      simp only [bind, Except.bind, hv.decide_eq, if_neg hTrue, hNoText i]
  | .each target items condition body otherwise, hp => by
    obtain ⟨x, item, rfl, rfl, hItems, hBody, hOtherwise⟩ := exists_of_isKnown_each hp
    obtain ⟨v, hv, hEval⟩ := exists_eval_of_shape? h hItems
    obtain ⟨text, hText⟩ := exists_renderParts_of_areKnown h otherwise hOtherwise
    cases hv with
    | @list _ values hValues =>
      have hEach : ∀ a ∈ values.zipIdx, ∃ text, ∀ i,
          renderParts ((x, a.1) :: ("loop", positionOf values a.2) :: scopes i) body =
            .ok text := by
        intro a ha
        have hPosition := h.cons "loop" (fits_position values a.2)
        have hItem := hValues a.1 (List.fst_mem_of_mem_zipIdx ha)
        exact exists_renderParts_of_areKnown (hPosition.cons x hItem) body hBody
      obtain ⟨texts, hTexts⟩ := exists_mapM_of_forall hEach
      by_cases hEmpty : values = []
      · refine ⟨text, ?_⟩
        intro i
        rw [renderPart_each (hEval i), if_pos hEmpty, hText i]
      · refine ⟨String.join texts, ?_⟩
        intro i
        rw [renderPart_each (hEval i), if_neg hEmpty, hTexts i]
        rfl

/-- **Known parts come out as the same text in all of the scopes.** -/
theorem exists_renderParts_of_areKnown {known : Sketch} {scopes : ι → Scope}
    (h : known.Describes scopes) : (parts : List Part) → areKnown known parts = true →
    ∃ text, ∀ i, renderParts (scopes i) parts = .ok text
  | [], _ => ⟨"", fun i => renderParts_nil _⟩
  | p :: rest, hp => by
    simp only [areKnown, Bool.and_eq_true] at hp
    obtain ⟨text, hText⟩ := exists_renderPart_of_isKnown h p hp.1
    obtain ⟨more, hMore⟩ := exists_renderParts_of_areKnown h rest hp.2
    exact ⟨text ++ more, fun i => renderParts_cons (hText i) (hMore i)⟩

end

end DesignSystem.Template
