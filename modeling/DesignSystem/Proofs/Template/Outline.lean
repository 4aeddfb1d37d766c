import DesignSystem.Proofs.Template.Known
/-!
# Templates as outlines

Some parts of a template are slots: what they print is not known, but it is known where they stand.
All parts between them are known. Such a template is an outline, fixed texts with slots in an order
that can be computed (`isOutline`), and **filled in any of the scopes it is the outline with the
slots written in** (`exists_outline`). So nothing that is written at a slot is looked at again, and
nothing else depends on it.
-/

namespace DesignSystem.Template

/-! ### Templates that are the same -/

/-- Whether two expressions are made the same way of names, texts, integers and filters. -/
def Expr.same : Expr → Expr → Bool
  | .literal (.text s), .literal (.text t) => s == t
  | .literal (.number (.int i)), .literal (.number (.int j)) => i == j
  | .variable x, .variable y => x == y
  | .filter e x [] [], .filter d y [] [] => x == y && e.same d
  | .filter e x [a] [], .filter d y [b] [] => x == y && a.same b && e.same d
  | _, _ => false

theorem Expr.eq_of_same {e d : Expr} (h : e.same d = true) : e = d := by
  fun_induction Expr.same e d <;> simp_all

mutual

/-- Whether two parts are texts, gaps or choices made the same way. -/
def Part.same : Part → Part → Bool
  | .text s, .text t => s == t
  | .print e, .print d => e.same d
  | .choice c yes no, .choice d yes' no' => c.same d && sameParts yes yes' && sameParts no no'
  | _, _ => false

/-- Whether parts are the same one by one. -/
def sameParts : List Part → List Part → Bool
  | [], [] => true
  | p :: ps, q :: qs => p.same q && sameParts ps qs
  | _, _ => false

end

mutual

theorem Part.eq_of_same : (p q : Part) → p.same q = true → p = q
  | .text s, .text t, h => by rw [eq_of_beq h]
  | .print e, .print d, h => by rw [Expr.eq_of_same h]
  | .choice c yes no, .choice d yes' no', h => by
    simp only [Part.same, Bool.and_eq_true] at h
    rw [Expr.eq_of_same h.1.1, eq_of_sameParts yes yes' h.1.2, eq_of_sameParts no no' h.2]

theorem eq_of_sameParts : (ps qs : List Part) → sameParts ps qs = true → ps = qs
  | [], [], _ => rfl
  | p :: ps, q :: qs, h => by
    simp only [sameParts, Bool.and_eq_true] at h
    rw [Part.eq_of_same p q h.1, eq_of_sameParts ps qs h.2]

end

/-! ### Outlines -/

/-- A piece of an outline: a fixed text, or a slot. -/
inductive Piece (σ : Type) where
  | text (text : String)
  | slot (slot : σ)

/-- Texts with slots between them. -/
abbrev Outline (σ : Type) := List (Piece σ)

variable {σ ι : Type}

/-- The slots of an outline in order. -/
def Outline.slots : Outline σ → List σ
  | [] => []
  | .text _ :: rest => slots rest
  | .slot s :: rest => s :: slots rest

/-- The text of an outline with a text written at every slot. -/
def Outline.write (inserted : σ → String) : Outline σ → String
  | [] => ""
  | .text t :: rest => t ++ write inserted rest
  | .slot s :: rest => inserted s ++ write inserted rest

/-- Whether parts are known but for those of the given slots, which come in their order. -/
def isOutline (known : Sketch) (part : σ → Part) : List σ → List Part → Bool
  | [], parts => areKnown known parts
  | _ :: _, [] => false
  | s :: rest, p :: parts =>
    if p.same (part s) then isOutline known part rest parts
    else p.isKnown known && isOutline known part (s :: rest) parts

/-- **Parts that are known but for their slots are, in all of the scopes, one outline with the
slots written in.** -/
theorem exists_outline {known : Sketch} {scopes : ι → Scope} (h : known.Describes scopes)
    {part : σ → Part} (inserted : σ → ι → String)
    (hSlots : ∀ s i, renderPart (scopes i) (part s) = .ok (inserted s i))
    {slots : List σ} {parts : List Part} (hParts : isOutline known part slots parts = true) :
    ∃ outline : Outline σ, outline.slots = slots ∧
      ∀ i, renderParts (scopes i) parts = .ok (outline.write fun s => inserted s i) := by
  fun_induction isOutline known part slots parts with
  | case1 parts =>
    obtain ⟨text, hText⟩ := exists_renderParts_of_areKnown h parts hParts
    refine ⟨[.text text], rfl, ?_⟩
    intro i
    rw [hText i, Outline.write, Outline.write, String.append_empty]
  | case2 => cases hParts
  | case3 s rest p parts hSame ih =>
    obtain ⟨outline, hOrder, hText⟩ := ih hParts
    refine ⟨.slot s :: outline, by rw [Outline.slots, hOrder], ?_⟩
    intro i
    rw [Part.eq_of_same p (part s) hSame, Outline.write]
    exact renderParts_cons (hSlots s i) (hText i)
  | case4 s rest p parts hOther ih =>
    rw [Bool.and_eq_true] at hParts
    obtain ⟨text, hText⟩ := exists_renderPart_of_isKnown h p hParts.1
    obtain ⟨outline, hOrder, hRest⟩ := ih hParts.2
    exact ⟨.text text :: outline, hOrder, fun i => renderParts_cons (hText i) (hRest i)⟩

end DesignSystem.Template
