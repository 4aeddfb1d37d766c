import DesignSystem.Proofs.Token.Alias
import DesignSystem.Proofs.Tree.Conformity
/-!
# References to style variables

The style variable of an alias refers to the variable of its target. `Tree/Listing.lean` says which
variables there are; this file asks when the one referred to is among them.

Checking a tree follows every alias by looking paths up, which is not how variables come about, and
so a tree without issues may still refer to nothing. Looking up passes through reserved keys, whose
tokens have no variables; a target that begins with a dot is found but has a variable of another
name; and a key that holds a dot can hide a token, so that another one is followed in its place.
`alias_variable_emitted_iff` says that there are no other gaps: the target of an alias that was
followed exists, and if it is plain, outside reserved keys and without a dot in front, its variable
is there. Beyond that a reference is answered only by a token that happens to share the name.
-/

namespace DesignSystem

open DesignSystem.Tree

namespace Token

/-- The target has no reserved key on its way and does not begin with an empty one. -/
def Target.Plain (q : Target) : Prop :=
  (∀ key ∈ q.segments, isReserved key = false) ∧ q.segments.head? ≠ some ""

instance (q : Target) : Decidable q.Plain :=
  inferInstanceAs (Decidable (_ ∧ _))

end Token

namespace Tree

/-- A token elsewhere in the tree has a variable of the name that belongs to the target. -/
def Lends (t : Tree) (q : Token.Target) : Prop :=
  ∃ e ∈ t.asNode.listing, e.1 ≠ q.segments ∧ variableOf e.1 = q.variableName

/-! ### What checking finds out -/

/-- A listed alias of a tree without issues does not aim at a scale's representative, and the chain
that begins at its path leads to a literal. -/
theorem alias_of_conforms {t : Tree} (hConforms : t.issues = []) {path : String} {token : Token}
    {q : Token.Target} (hListed : (path, token) ∈ t.tokens) (hAlias : token.parsed = .aliasTo q) :
    q.isDefault = false ∧ ∃ text, t.resolve path = .ok text := by
  obtain ⟨hFits, hResolves⟩ := (conforms_iff.mp hConforms).2 path token hListed
  exact ⟨hFits.target q hAlias, hResolves q hAlias⟩

/-! ### The variable of the target -/

theorem mem_listing_segments_iff {t : Tree} {q : Token.Target} {inner : String}
    (hDotted : q = Token.Target.ofDotted inner) :
    (∃ token, (q.segments, token) ∈ t.asNode.listing) ↔
      (∀ key ∈ q.segments, isReserved key = false) ∧ (t.token? q.dotted).isSome = true := by
  have hLookup : t.token? q.dotted = t.tokenAt? q.segments := by
    rw [token?_eq, Token.Target.cut_dotted hDotted]
  rw [hLookup, Option.isSome_iff_exists]
  constructor
  · rintro ⟨token, h⟩
    obtain ⟨hToken, hKeys⟩ := mem_listing_iff.mp h
    exact ⟨hKeys, token, hToken⟩
  · rintro ⟨hKeys, token, hToken⟩
    exact ⟨token, mem_listing_iff.mpr ⟨hToken, hKeys⟩⟩

/-- The name of the variable is the one that the target announces if there is no empty key in front
and the target is no representative. -/
theorem variableOf_segments_iff {q : Token.Target} {inner : List Char} (hInner : inner ≠ [])
    (hDotted : q = Token.Target.ofDotted (String.ofList inner)) (hDefault : q.isDefault = false) :
    variableOf q.segments = q.variableName ↔ q.segments.head? ≠ some "" := by
  have hNe : q.segments ≠ [] := by
    rw [hDotted]
    intro hNil
    exact List.splitOn_ne_nil _ _ (List.map_eq_nil_iff.mp hNil)
  have hLast : q.segments.getLast? ≠ some defaultKey := by
    intro h
    rw [Token.Target.isDefault, h, beq_self_eq_true] at hDefault
    cases hDefault
  rw [variableOf, Token.Target.variableName, String.append_right_inj]
  constructor
  · intro hName hHead
    obtain ⟨rest, hRest⟩ := List.head?_eq_some_iff.mp hHead
    by_cases hNil : rest = []
    · have hText : q.dotted = "" := by
        rw [Token.Target.dotted, hRest, hNil, Text.glue_singleton]
      rw [hDotted, Token.Target.dotted_ofDotted] at hText
      exact hInner (String.ofList_eq_empty_iff.mp hText)
    · rw [hRest] at hName
      exact stem_ne_glue hNil hName
  · intro hHead
    rw [stem_eq_extend hNe (.inr hHead) hLast, extend_empty]

/-- The target of an alias that is found under its path is a token. -/
theorem target_of_conforms {t : Tree} (hConforms : t.issues = []) {path : String} {token : Token}
    {q : Token.Target} (hListed : (path, token) ∈ t.tokens) (hAlias : token.parsed = .aliasTo q)
    (hToken : t.token? path = some token) : (t.token? q.dotted).isSome = true := by
  obtain ⟨-, text, hResolve⟩ := alias_of_conforms hConforms hListed hAlias
  obtain ⟨targets, hChain⟩ := resolve_eq_ok_iff.mp hResolve
  obtain ⟨rest, hRest, -⟩ := hChain.of_aims ⟨token, q, hToken, hAlias, rfl⟩
  obtain ⟨other, hOther⟩ := hRest.exists_token
  rw [hOther]
  rfl

/-- A plain target that names a token has its variable. -/
theorem emitted_of_plain {t : Tree} {q : Token.Target} {inner : List Char} (hInner : inner ≠ [])
    (hDotted : q = Token.Target.ofDotted (String.ofList inner)) (hDefault : q.isDefault = false)
    (hPlain : q.Plain) (hSome : (t.token? q.dotted).isSome = true) :
    Keyed.has t.flatten q.variableName = true := by
  obtain ⟨other, hOther⟩ := (mem_listing_segments_iff hDotted).mpr ⟨hPlain.1, hSome⟩
  have hName := (variableOf_segments_iff hInner hDotted hDefault).mpr hPlain.2
  exact has_flatten_iff.mpr ⟨_, hOther, hName⟩

/-- **Where no key holds a dot, every plain reference of a conforming tree is answered.** -/
theorem emitted_of_conforms {t : Tree} (hConforms : t.issues = [])
    (hKeys : ∀ e ∈ t.asNode.listing, e.1.head? ≠ some "" ∧ ∀ key ∈ e.1, '.' ∉ key.toList)
    {path : String} {token : Token} {q : Token.Target} (hListed : (path, token) ∈ t.tokens)
    (hAlias : token.parsed = .aliasTo q) (hPlain : q.Plain) :
    Keyed.has t.flatten q.variableName = true := by
  have hFound : t.token? path = some token := by
    rw [tokens, Node.leaves_eq] at hListed
    obtain ⟨⟨keys, other⟩, hEntry, hEq⟩ := List.mem_map.mp hListed
    cases hEq
    obtain ⟨hHead, hDots⟩ := hKeys _ hEntry
    exact token?_of_listed hEntry hHead hDots
  obtain ⟨hDefault, -⟩ := alias_of_conforms hConforms hListed hAlias
  obtain ⟨inner, hInner, hDotted⟩ := Token.ofDotted_of_parse hAlias
  exact emitted_of_plain hInner hDotted hDefault hPlain
    (target_of_conforms hConforms hListed hAlias hFound)

/-- **Which references of a conforming tree are answered.** The variable that an alias refers to is
there exactly if the target is plain and names a token, or if a token elsewhere lends its name; and
the target does name a token wherever the alias itself is found under its path. -/
theorem alias_variable_emitted_iff {t : Tree} (hConforms : t.issues = []) {path : String}
    {token : Token} {q : Token.Target} (hListed : (path, token) ∈ t.tokens)
    (hAlias : token.parsed = .aliasTo q) :
    (Keyed.has t.flatten q.variableName = true ↔
        (q.Plain ∧ (t.token? q.dotted).isSome = true) ∨ t.Lends q) ∧
      (t.token? path = some token → (t.token? q.dotted).isSome = true) := by
  obtain ⟨hDefault, -⟩ := alias_of_conforms hConforms hListed hAlias
  obtain ⟨inner, hInner, hDotted⟩ := Token.ofDotted_of_parse hAlias
  refine ⟨⟨fun hHas => ?_, ?_⟩, target_of_conforms hConforms hListed hAlias⟩
  · obtain ⟨⟨keys, other⟩, hOther, hEq⟩ := has_flatten_iff.mp hHas
    by_cases hKeys : keys = q.segments
    · subst hKeys
      obtain ⟨hReserved, hSome⟩ := (mem_listing_segments_iff hDotted).mp ⟨other, hOther⟩
      have hHead := (variableOf_segments_iff hInner hDotted hDefault).mp hEq
      exact .inl ⟨⟨hReserved, hHead⟩, hSome⟩
    · exact .inr ⟨_, hOther, hKeys, hEq⟩
  · rintro (⟨hPlain, hSome⟩ | ⟨e, he, -, hEq⟩)
    · exact emitted_of_plain hInner hDotted hDefault hPlain hSome
    · exact has_flatten_iff.mpr ⟨e, he, hEq⟩

/-- A tree without issues whose text color is an alias of a token under a reserved key. -/
def accented : Tree :=
  ofBranches [
    ("color", Branch.group (
      Palette.scales.map (Branch.colorScale · (List.replicate 11 "white")) ++
      Branch.leaves .color (Palette.roles.map (·, "white")) ++
      [("$accent", Branch.leaf .color "black"), ("text", Branch.aliasTo .color "color.$accent")])),
    ("geometry", emptyGroups ["spacing", "border", "radius"]),
    ("typography", emptyGroups ["fontFamily", "fontSize", "fontWeight", "lineHeight"]),
    ("effect", emptyGroups ["shadow"])]
where
  emptyGroups (names : List String) : Branch :=
    Branch.group (names.map (·, Branch.group []))

/-- Checking finds nothing wrong with it. -/
theorem accented_issues : accented.issues = [] := by
  decide +kernel

theorem scale_variable_emitted :
    accented.issues = [] ∧
      ("color.primary.DEFAULT", ⟨"\x7bcolor.primary.500\x7d", .color, none⟩) ∈ accented.tokens ∧
      (⟨"\x7bcolor.primary.500\x7d", .color, none⟩ : Token).parsed =
        .aliasTo (.ofDotted "color.primary.500") ∧
      Keyed.has accented.flatten (Token.Target.ofDotted "color.primary.500").variableName =
        true := by
  have hListed : ("color.primary.DEFAULT", ⟨"\x7bcolor.primary.500\x7d", .color, none⟩) ∈
      accented.tokens := by decide +kernel
  have hAlias : (⟨"\x7bcolor.primary.500\x7d", .color, none⟩ : Token).parsed =
      .aliasTo (.ofDotted "color.primary.500") := by decide +kernel
  have hFound : accented.token? "color.primary.DEFAULT" =
      some ⟨"\x7bcolor.primary.500\x7d", .color, none⟩ := by decide +kernel
  have hPlain : (Token.Target.ofDotted "color.primary.500").Plain := by decide +kernel
  obtain ⟨hIff, hTarget⟩ := alias_variable_emitted_iff accented_issues hListed hAlias
  exact ⟨accented_issues, hListed, hAlias, hIff.mpr (.inl ⟨hPlain, hTarget hFound⟩)⟩

/-- A tree without issues may refer to a variable that it does not have. -/
theorem conforming_tree_refers_to_nothing :
    ¬ ∀ t : Tree, t.issues = [] → ∀ e ∈ t.tokens, ∀ q, e.2.parsed = .aliasTo q →
      Keyed.has t.flatten q.variableName = true := by
  intro hAll
  have hListed : ("color.text", ⟨"\x7bcolor.$accent\x7d", .color, none⟩) ∈ accented.tokens := by
    decide +kernel
  have hAlias : (⟨"\x7bcolor.$accent\x7d", .color, none⟩ : Token).parsed =
      .aliasTo (.ofDotted "color.$accent") := by decide +kernel
  have hOthers : ∀ e ∈ accented.asNode.listing,
      stem "" e.1 ≠ "color-$accent" := by decide +kernel
  obtain ⟨e, he, hName⟩ :=
    has_flatten_iff.mp (hAll accented accented_issues _ hListed _ hAlias)
  exact hOthers e he (String.append_right_inj _ |>.mp hName)

end Tree

end DesignSystem
