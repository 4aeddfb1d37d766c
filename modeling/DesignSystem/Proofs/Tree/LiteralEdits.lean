import DesignSystem.Proofs.Tree.Dependence
import DesignSystem.Proofs.Tree.References
/-!
# Literals in conforming trees

A token of a conforming tree may be given any other literal, as long as a color stays a color. It
does not matter where the token stands: a chain of aliases that leads to it ends there afterwards
(`chain_set_self`), and all other chains are what they were, so every alias still leads to a literal.
The tree has the same groups as before, and a token wherever it had one.

The one thing that a literal can spoil is the representative of a color scale, which has to be an
alias of one of the steps. `issues_set_literal` says that then this is all that is found.
-/

namespace DesignSystem.Tree

open Schema

variable {t : Tree} {path value : String} {token : Token}

/-! ### The edited token -/

/-- Where a token is found, an edit lands, unless the path has an empty key. -/
theorem not_blocks_of_token? (hToken : t.token? path = some token)
    (hKeys : "" ∉ Text.cut '.' path) : ¬ t.Blocks path := by
  intro hBlocks
  cases hToken.symm.trans (token?_of_blocks hBlocks hKeys)

theorem token?_set_of_token? (hToken : t.token? path = some token)
    (hKeys : "" ∉ Text.cut '.' path) (value : String) :
    (t.set path value).token? path = some { token with value } := by
  rw [token?_set_self (not_blocks_of_token? hToken hKeys), hToken]
  rfl

theorem group?_of_token? (hToken : t.token? path = some token) : t.group? path = none := by
  obtain ⟨n, hNode, hAs⟩ := Option.bind_eq_some_iff.mp hToken
  rw [group?, hNode]
  cases n with
  | token old => rfl
  | group members => cases hAs
  | metadata v => cases hAs

/-- A literal fits where a token did, if a color stays a color. -/
theorem Fits.literal (h : Fits path token) (hLiteral : Token.Value.parse value = .literal value)
    (hColor : token.kind = .color → isColor value = true) : Fits path { token with value } where
  kind := h.kind
  color text hText hKind := by
    cases hLiteral.symm.trans hText
    exact hColor hKind
  target q hq := by
    cases hLiteral.symm.trans hq

/-- **A literal does no harm to any token.** -/
theorem tokenIssues_set_literal (hConforms : t.issues = []) (hToken : t.token? path = some token)
    (hKeys : "" ∉ Text.cut '.' path) (hLiteral : Token.Value.parse value = .literal value)
    (hColor : token.kind = .color → isColor value = true) :
    tokenIssues (t.set path value) = [] := by
  show tokenIssues (t.setAll [(path, value)]) = []
  refine tokenIssues_setAll hConforms ?_ ?_ ?_
  · refine List.forall_mem_singleton.mpr fun hHead => ?_
    exact hKeys (List.mem_of_mem_head? hHead)
  · refine List.forall_mem_singleton.mpr fun hPlain edited hEdited => ?_
    cases (token?_set_of_token? hToken hKeys value).symm.trans hEdited
    have hListed := mem_tokens_of_token? hPlain hToken
    exact ((conforms_iff.mp hConforms).2 path token hListed).1.literal hLiteral hColor
  · refine List.forall_mem_singleton.mpr fun _ => ?_
    exact ⟨[], value, chain_set_self (not_blocks_of_token? hToken hKeys) hLiteral⟩

/-! ### The scales -/

/-- **Of a complete scale a literal spoils the representative, and only when it lands there.** -/
theorem scaleIssues_set_literal {scale : String} (hScale : scale ∈ Palette.scales)
    (h : scaleIssues t scale = []) (hToken : t.token? path = some token)
    (hKeys : "" ∉ Text.cut '.' path) (hLiteral : Token.Value.parse value = .literal value) :
    scaleIssues (t.set path value) scale =
      if path = representative scale then [⟨path, .literalDefault⟩] else [] := by
  obtain ⟨hGroup, hSteps, -⟩ := scaleIssues_eq_nil_iff.mp h
  have hNe : "color." ++ scale ≠ path := by
    rintro rfl
    exact hGroup (group?_of_token? hToken)
  split
  · rename_i hPath
    obtain ⟨members, hMembers⟩ :=
      Option.ne_none_iff_exists'.mp (exists_group_set hNe hGroup value)
    have hMember : ∀ key, memberToken? members key =
        (t.set path value).tokenAt? (stepKeys scale key) := memberToken?_eq hMembers
    have hDefault : memberToken? members defaultKey = some { token with value } := by
      rw [hMember, ← cut_representative scale hScale, ← hPath, ← token?_eq,
        token?_set_of_token? hToken hKeys]
    have hAll : (Palette.steps ++ [defaultKey]).filter
        (fun step => (memberToken? members step).isNone) = [] := by
      refine List.filter_eq_nil_iff.mpr fun step hStep => ?_
      rw [hMember, Option.isNone_iff_eq_none]
      exact exists_tokenAt_set (hSteps step hStep) path value
    have hAlias : ({ token with value } : Token).parsed.isAlias = false := by
      rw [Token.parsed, hLiteral]
      rfl
    simp only [scaleIssues, hMembers, hAll, hDefault, hAlias]
    rw [hPath]
    rfl
  · rename_i hPath
    show scaleIssues (t.setAll [(path, value)]) scale = []
    refine scaleIssues_setAll hScale ?_ ?_ h
    · exact fun hMem => hNe (List.mem_singleton.mp hMem)
    · exact List.forall_mem_singleton.mpr fun hHere => absurd hHere hPath

/-- Where the roles and groups are there, the scales are all that can be incomplete. -/
theorem structureIssues_eq_flatMap
    (hRoles : ∀ role ∈ Palette.roles, t.token? ("color." ++ role) ≠ none)
    (hGroups : ∀ path ∈ groups, t.group? path ≠ none) :
    structureIssues t = Palette.scales.flatMap (scaleIssues t) := by
  have hNoRole : (Palette.roles.map ("color." ++ ·)).filter
      (fun path => (t.token? path).isNone) = [] := by
    simpa [List.filter_eq_nil_iff] using hRoles
  have hNoGroup : groups.filter (fun path => (t.group? path).isNone) = [] := by
    simpa [List.filter_eq_nil_iff] using hGroups
  rw [structureIssues, hNoRole, hNoGroup, List.map_nil, List.map_nil, List.append_nil,
    List.append_nil]

theorem structureIssues_set_literal (h : structureIssues t = [])
    (hToken : t.token? path = some token) (hKeys : "" ∉ Text.cut '.' path)
    (hLiteral : Token.Value.parse value = .literal value) :
    structureIssues (t.set path value) =
      if path ∈ representatives then [⟨path, .literalDefault⟩] else [] := by
  obtain ⟨hScales, hRoles, hGroups⟩ := structureIssues_eq_nil_iff.mp h
  have hOther : ∀ other, t.group? other ≠ none → (t.set path value).group? other ≠ none := by
    intro other hOther
    refine exists_group_set ?_ hOther value
    rintro rfl
    exact hOther (group?_of_token? hToken)
  rw [structureIssues_eq_flatMap (fun role hRole => exists_tokenAt_set (hRoles role hRole) _ _)
    fun other hMem => hOther other (hGroups other hMem)]
  split
  · rename_i hPath
    obtain ⟨scale, hScale, rfl⟩ := List.mem_map.mp hPath
    have hOnce : ∀ scale ∈ Palette.scales, (Palette.scales.flatMap fun other =>
        if representative scale = representative other then
          [Issue.mk (representative scale) .literalDefault] else []) =
          [⟨representative scale, .literalDefault⟩] := by
      decide
    rw [← hOnce scale hScale]
    refine List.flatMap_congr fun other hMem => ?_
    exact scaleIssues_set_literal hMem (hScales other hMem) hToken hKeys hLiteral
  · rename_i hPath
    refine List.flatMap_eq_nil_iff.mpr fun scale hScale => ?_
    rw [scaleIssues_set_literal hScale (hScales scale hScale) hToken hKeys hLiteral, if_neg]
    exact fun hHere => hPath (List.mem_map.mpr ⟨scale, hScale, hHere.symm⟩)

/-! ### The statement -/

/-- **A literal keeps a conforming tree conforming.** It may be written to any token, wherever that
stands and whatever it was before, if a color stays a color. Only the representative of a scale has to
be an alias, and that is what checking then finds wrong with the tree, and nothing else. -/
theorem issues_set_literal {t : Tree} (hConforms : t.issues = []) {path : String} {token : Token}
    (hToken : t.token? path = some token) {value : String}
    (hLiteral : (Token.Value.parse value).isAlias = false)
    (hColor : token.kind = .color → isColor value = true) :
    (path ∉ representatives → (t.set path value).issues = []) ∧
      (path ∈ representatives → (t.set path value).issues = [⟨path, .literalDefault⟩]) := by
  have hText := Token.Value.parse_of_not_alias hLiteral
  by_cases hKeys : "" ∈ Text.cut '.' path
  · have hNot : path ∉ representatives := by
      have hAll : ∀ other ∈ representatives, "" ∉ Text.cut '.' other := by decide
      exact fun hMem => hAll path hMem hKeys
    rw [set_of_empty_key hKeys]
    exact ⟨fun _ => hConforms, fun hMem => absurd hMem hNot⟩
  · rw [issues, tokenIssues_set_literal hConforms hToken hKeys hText hColor,
      structureIssues_set_literal (conforms_iff.mp hConforms).1 hToken hKeys hText,
      List.append_nil]
    exact ⟨fun hNot => if_neg hNot, fun hMem => if_pos hMem⟩

/-- A token under a reserved key, which checking does not list but an alias leads to, may get another
literal. -/
theorem accent_gets_literal :
    accented.issues = [] ∧ accented.token? "color.$accent" = some ⟨"black", .color, none⟩ ∧
      (Token.Value.parse "#fde047").isAlias = false ∧ isColor "#fde047" = true ∧
      "color.$accent" ∉ representatives ∧ (accented.set "color.$accent" "#fde047").issues = [] := by
  have hToken : accented.token? "color.$accent" = some ⟨"black", .color, none⟩ := by
    decide +kernel
  have hLiteral : (Token.Value.parse "#fde047").isAlias = false := by decide
  have hColor : isColor "#fde047" = true := by decide
  have hNot : "color.$accent" ∉ representatives := by decide
  exact ⟨accented_issues, hToken, hLiteral, hColor, hNot,
    (issues_set_literal accented_issues hToken hLiteral fun _ => hColor).1 hNot⟩

end DesignSystem.Tree
