import DesignSystem.Schema
import DesignSystem.Proofs.Tree.Chain
import DesignSystem.Proofs.Tree.Edits
import DesignSystem.Proofs.Tree.Listing
/-!
# Trees without issues

What checking a tree says of it, token by token. A token `Fits` its path by itself, from its kind and
its text; only whether its aliases lead to a literal depends on the rest of the tree. `conforms_iff`
puts the two together, and `issue_of_fits` says what checking finds when only the second fails.

The second part asks what edits keep of this. Parts that a complete tree has do not get lost
(`structureIssues_setAll`), and a listed token is an edited one or was there before
(`mem_tokens_setAll`). A chain that reaches no edited path is kept; at one it goes on as the edit
says (`chain_setAll`). So it is enough to look at the edited paths (`tokenIssues_setAll`).
-/

namespace DesignSystem.Tree

open Schema

variable {t : Tree} {path value : String} {token : Token} {edits : List (String × String)}

/-- A token is in order at its path, wherever its aliases lead. -/
structure Fits (path : String) (token : Token) : Prop where
  kind : kindIssues path token = []
  color : ∀ text, token.parsed = .literal text → token.kind = .color → isColor text = true
  target : ∀ q, token.parsed = .aliasTo q → q.isDefault = false

/-- What checking finds wrong with a token that fits its path is where its aliases lead. -/
theorem issue_of_fits (hFits : Fits path token) {i : Issue}
    (hIssue : i ∈ kindIssues path token ++ valueIssues t path token) :
    ∃ q error, token.parsed = .aliasTo q ∧ t.resolve path = .error error ∧
      i = ⟨path, .brokenAlias error⟩ := by
  rw [hFits.kind, List.nil_append, valueIssues] at hIssue
  cases hParsed : token.parsed with
  | literal text =>
    simp only [hParsed] at hIssue
    split at hIssue
    · rename_i hBad
      exact absurd (hFits.color text hParsed hBad.1) hBad.2
    · cases hIssue
  | aliasTo q =>
    simp only [hParsed, hFits.target q hParsed, Bool.false_eq_true, if_false,
      List.nil_append] at hIssue
    cases hResolve : t.resolve path with
    | ok text =>
      simp only [hResolve] at hIssue
      cases hIssue
    | error error =>
      simp only [hResolve] at hIssue
      exact ⟨q, error, rfl, rfl, List.mem_singleton.mp hIssue⟩

/-- **Nothing is wrong with a token exactly if it fits its path and its aliases lead to a literal.** -/
theorem issues_eq_nil_iff : kindIssues path token ++ valueIssues t path token = [] ↔
    Fits path token ∧ ∀ q, token.parsed = .aliasTo q → ∃ text, t.resolve path = .ok text := by
  constructor
  · intro hNone
    obtain ⟨hKind, hValue⟩ := List.append_eq_nil_iff.mp hNone
    rw [valueIssues] at hValue
    cases hParsed : token.parsed with
    | literal text =>
      refine ⟨⟨hKind, fun text' hText hColor => ?_, fun q hq => ?_⟩, fun q hq => ?_⟩
      · cases hParsed.symm.trans hText
        by_contra hBad
        rw [hParsed] at hValue
        simp [hColor, hBad] at hValue
      · cases hParsed.symm.trans hq
      · cases hq
    | aliasTo q =>
      rw [hParsed] at hValue
      obtain ⟨hDefault, hResolve⟩ := List.append_eq_nil_iff.mp hValue
      refine ⟨⟨hKind, fun text hText => ?_, fun q' hq' => ?_⟩, fun q' _ => ?_⟩
      · cases hParsed.symm.trans hText
      · cases hParsed.symm.trans hq'
        split at hDefault
        · cases hDefault
        · rename_i hFalse
          exact Bool.eq_false_iff.mpr hFalse
      · split at hResolve
        · rename_i text hText
          exact ⟨text, hText⟩
        · cases hResolve
  · rintro ⟨hFits, hResolves⟩
    refine List.eq_nil_iff_forall_not_mem.mpr fun i hi => ?_
    obtain ⟨q, error, hAlias, hError, -⟩ := issue_of_fits hFits hi
    obtain ⟨text, hText⟩ := hResolves q hAlias
    cases hText.symm.trans hError

/-- The tokens have no issues exactly if all of them fit their paths and all their aliases lead to
literals. -/
theorem tokenIssues_eq_nil_iff : tokenIssues t = [] ↔
    ∀ path token, (path, token) ∈ t.tokens → Fits path token ∧
      ∀ q, token.parsed = .aliasTo q → ∃ text, t.resolve path = .ok text := by
  rw [tokenIssues, List.flatMap_eq_nil_iff]
  refine ⟨fun h path token hListed => ?_, fun h e he => ?_⟩
  · exact issues_eq_nil_iff.mp (h (path, token) hListed)
  · exact issues_eq_nil_iff.mpr (h e.1 e.2 he)

/-- **A tree conforms exactly if it is complete, all its tokens fit their paths, and all their
aliases lead to literals.** -/
theorem conforms_iff : t.issues = [] ↔ structureIssues t = [] ∧
    ∀ path token, (path, token) ∈ t.tokens → Fits path token ∧
      ∀ q, token.parsed = .aliasTo q → ∃ text, t.resolve path = .ok text := by
  rw [issues, List.append_eq_nil_iff, tokenIssues_eq_nil_iff]

/-! ### Complete trees -/

/-- A member of a group that is a token is the token under the keys of both. -/
theorem memberToken?_eq {members : Keyed Node} (h : t.group? path = some members) (key : String) :
    memberToken? members key = t.tokenAt? (Text.cut '.' path ++ [key]) := by
  obtain ⟨n, hNode, hGroup⟩ := Option.bind_eq_some_iff.mp h
  cases n with
  | token s => cases hGroup
  | metadata v => cases hGroup
  | group inner =>
    cases hGroup
    rw [node?] at hNode
    rw [memberToken?, tokenAt?, Node.at?_append, hNode, Option.bind_some, Node.at?]
    cases Keyed.get? members key <;> rfl

/-- The keys of a step of a color scale. -/
def stepKeys (scale step : String) : List String :=
  Text.cut '.' ("color." ++ scale) ++ [step]

/-- **A scale is complete exactly if it has a token at every step and its representative is an
alias.** -/
theorem scaleIssues_eq_nil_iff {scale : String} : scaleIssues t scale = [] ↔
    t.group? ("color." ++ scale) ≠ none ∧
      (∀ step ∈ Palette.steps ++ [defaultKey], t.tokenAt? (stepKeys scale step) ≠ none) ∧
      ∀ token, t.tokenAt? (stepKeys scale defaultKey) = some token →
        token.parsed.isAlias = true := by
  unfold stepKeys
  cases hGroup : t.group? ("color." ++ scale) with
  | none => simp [scaleIssues, hGroup]
  | some members =>
    simp only [scaleIssues, hGroup, List.append_eq_nil_iff, List.map_eq_nil_iff,
      List.filter_eq_nil_iff, Option.isNone_iff_eq_none, ← memberToken?_eq hGroup]
    rw [and_iff_right (Option.some_ne_none members)]
    refine and_congr_right fun _ => ?_
    cases memberToken? members defaultKey with
    | none => simp
    | some token => simp

/-- **A tree is complete exactly if all its scales are, and it has the roles and the groups.** -/
theorem structureIssues_eq_nil_iff : structureIssues t = [] ↔
    (∀ scale ∈ Palette.scales, scaleIssues t scale = []) ∧
      (∀ role ∈ Palette.roles, t.token? ("color." ++ role) ≠ none) ∧
      ∀ path ∈ groups, t.group? path ≠ none := by
  simp only [structureIssues, List.append_eq_nil_iff, List.flatMap_eq_nil_iff,
    List.map_eq_nil_iff, List.filter_eq_nil_iff, Option.isNone_iff_eq_none,
    List.forall_mem_map, and_assoc, ne_eq]

/-! ### Tokens under plain paths -/

/-- No key of the path is reserved, and the first one is not empty. -/
def IsPlainPath (path : String) : Prop :=
  (∀ key ∈ Text.cut '.' path, isReserved key = false) ∧ (Text.cut '.' path).head? ≠ some ""

instance (path : String) : Decidable (IsPlainPath path) :=
  inferInstanceAs (Decidable (_ ∧ _))

/-- The keys of a plain path are extended to the path. -/
theorem IsPlainPath.foldl_extend (h : IsPlainPath path) :
    (Text.cut '.' path).foldl (extend '.') "" = path := by
  rw [foldl_extend_empty (Text.cut_ne_nil '.' path) h.2, Text.glue_cut]

/-- A token that is found under a plain path is listed under it. -/
theorem mem_tokens_of_token? (hPath : IsPlainPath path) (hToken : t.token? path = some token) :
    (path, token) ∈ t.tokens := by
  rw [tokens, Node.leaves_eq]
  refine List.mem_map.mpr ⟨_, listed_of_token? hToken hPath.1, ?_⟩
  rw [hPath.foldl_extend]

/-- **In a tree that conforms, a chain leads from every token under a plain path to a literal.** -/
theorem chain_of_conforms (hConforms : t.issues = []) (hPath : IsPlainPath path)
    (hToken : t.token? path ≠ none) : ∃ targets text, t.Chain path targets text := by
  obtain ⟨token, hToken⟩ := Option.ne_none_iff_exists'.mp hToken
  cases hParsed : token.parsed with
  | literal text => exact ⟨[], text, .literal hToken hParsed⟩
  | aliasTo q =>
    have hListed := mem_tokens_of_token? hPath hToken
    obtain ⟨text, hText⟩ := ((conforms_iff.mp hConforms).2 path token hListed).2 q hParsed
    obtain ⟨targets, hChain⟩ := resolve_eq_ok_iff.mp hText
    exact ⟨targets, text, hChain⟩

/-! ### What edits keep -/

theorem parsed_edited (path : List String) (value : String) (old : Option Token) :
    (Token.edited path value old).parsed = Token.Value.parse value := by
  cases old <;> rfl

/-- An edited token has the kind of its path, if it had it before. -/
theorem kindIssues_edited {old : Option Token}
    (hOld : ∀ token, old = some token → kindIssues path token = []) :
    kindIssues path (.edited (Text.cut '.' path) value old) = [] := by
  cases old with
  | some token => exact hOld token rfl
  | none => simp [kindIssues, Token.edited]

/-- **A listed token of an edited tree is one at an edited path, which is plain, or was listed
before.** -/
theorem mem_tokens_setAll (hHeads : ∀ e ∈ edits, (Text.cut '.' e.1).head? ≠ some "")
    (h : (path, token) ∈ (t.setAll edits).tokens) :
    (path ∈ edits.map Prod.fst ∧ IsPlainPath path ∧ (t.setAll edits).token? path = some token) ∨
      (path, token) ∈ t.tokens := by
  rw [tokens, Node.leaves_eq] at h
  obtain ⟨⟨keys, token⟩, hListed, hEq⟩ := List.mem_map.mp h
  cases hEq
  obtain ⟨hToken, hKeys⟩ := mem_listing_iff.mp hListed
  by_cases hEdited : ∃ e ∈ edits, keys = Text.cut '.' e.1
  · obtain ⟨e, he, rfl⟩ := hEdited
    have hPlain : IsPlainPath e.1 := ⟨hKeys, hHeads e he⟩
    rw [hPlain.foldl_extend]
    exact .inl ⟨List.mem_map_of_mem he, hPlain, hToken⟩
  · rw [tokenAt?_setAll_of_ne t fun e he hEq => hEdited ⟨e, he, hEq⟩] at hToken
    rw [tokens, Node.leaves_eq]
    exact .inr (List.mem_map.mpr ⟨_, mem_listing_iff.mpr ⟨hToken, hKeys⟩, rfl⟩)

theorem alias_set {keys : List String}
    (hEdit : keys = Text.cut '.' path → (Token.Value.parse value).isAlias = true)
    (h : ∀ token, t.tokenAt? keys = some token → token.parsed.isAlias = true) :
    ∀ token, (t.set path value).tokenAt? keys = some token → token.parsed.isAlias = true := by
  intro token hToken
  by_cases hPath : keys = Text.cut '.' path
  · subst hPath
    by_cases hEmpty : "" ∈ Text.cut '.' path
    · rw [set_of_empty_key hEmpty] at hToken
      exact h token hToken
    · rcases token?_set t hEmpty value with hSome | ⟨-, hNone⟩
      · cases hToken.symm.trans hSome
        rw [parsed_edited]
        exact hEdit rfl
      · cases hToken.symm.trans hNone
  · rw [tokenAt?_set_of_ne t hPath] at hToken
    exact h token hToken

/-- A token that is an alias stays one, if the edits at its path write aliases. -/
theorem alias_setAll {keys : List String}
    (hEdits : ∀ e ∈ edits, keys = Text.cut '.' e.1 → (Token.Value.parse e.2).isAlias = true)
    (h : ∀ token, t.tokenAt? keys = some token → token.parsed.isAlias = true) :
    ∀ token, (t.setAll edits).tokenAt? keys = some token → token.parsed.isAlias = true := by
  induction edits generalizing t with
  | nil => exact h
  | cons e edits ih =>
    exact ih (fun d hd => hEdits d (List.mem_cons_of_mem _ hd))
      (alias_set (hEdits e List.mem_cons_self) h)

/-- The groups of a complete tree, the color scales among them. -/
def requiredGroups : List String :=
  Palette.scales.map ("color." ++ ·) ++ groups

/-- The path of a scale's representative. -/
def representative (scale : String) : String :=
  "color." ++ scale ++ "." ++ defaultKey

/-- The paths of the representatives of all scales. -/
def representatives : List String :=
  Palette.scales.map representative

theorem cut_representative : ∀ scale ∈ Palette.scales,
    Text.cut '.' (representative scale) = stepKeys scale defaultKey := by
  decide

/-- A scale of a complete tree is complete after edits, if they are not at its group and its
representative only becomes another alias. -/
theorem scaleIssues_setAll {scale : String} (hScale : scale ∈ Palette.scales)
    (hGroup : "color." ++ scale ∉ edits.map Prod.fst)
    (hDefault : ∀ e ∈ edits, e.1 = representative scale →
      (Token.Value.parse e.2).isAlias = true)
    (h : scaleIssues t scale = []) : scaleIssues (t.setAll edits) scale = [] := by
  obtain ⟨hThere, hSteps, hAlias⟩ := scaleIssues_eq_nil_iff.mp h
  refine scaleIssues_eq_nil_iff.mpr ⟨exists_group_setAll hGroup hThere,
    fun step hStep => exists_tokenAt_setAll (hSteps step hStep) edits,
    alias_setAll (fun e he hKeys => hDefault e he ?_) hAlias⟩
  exact Text.cut_injective (hKeys.symm.trans (cut_representative scale hScale).symm)

/-- **Edits keep what a complete tree has**, if they are not at its groups and the representatives
of its scales only become other aliases. -/
theorem structureIssues_setAll (hGroups : ∀ path ∈ requiredGroups, path ∉ edits.map Prod.fst)
    (hDefaults : ∀ e ∈ edits, e.1 ∈ representatives → (Token.Value.parse e.2).isAlias = true)
    (h : structureIssues t = []) : structureIssues (t.setAll edits) = [] := by
  obtain ⟨hScales, hRoles, hOthers⟩ := structureIssues_eq_nil_iff.mp h
  refine structureIssues_eq_nil_iff.mpr
    ⟨fun scale hScale => ?_, fun role hRole => ?_, fun path hPath => ?_⟩
  · have hScalePath : "color." ++ scale ∈ requiredGroups :=
      List.mem_append_left _ (List.mem_map_of_mem hScale)
    refine scaleIssues_setAll hScale (hGroups _ hScalePath) (fun e he hPath => ?_)
      (hScales scale hScale)
    exact hDefaults e he (List.mem_map.mpr ⟨scale, hScale, hPath.symm⟩)
  · exact exists_token_setAll (hRoles role hRole) edits
  · exact exists_group_setAll (hGroups path (List.mem_append_right _ hPath)) (hOthers path hPath)

/-! ### Chains of edited trees -/

/-- An alias leads on from a path that is none of the given ones. -/
def Passes (t : Tree) (paths : List String) (path other : String) : Prop :=
  path ∉ paths ∧ t.Aims path other

/-- Apart from the edited paths, aliases aim where they did. -/
theorem aims_setAll_iff {other : String} (h : path ∉ edits.map Prod.fst) :
    (t.setAll edits).Aims path other ↔ t.Aims path other := by
  rw [Aims, Aims, token?_setAll_of_not_mem t h]

/-- **A chain goes on in an edited tree**, if it does so from the edited paths that it reaches. -/
theorem chain_setAll {targets : List Token.Target} {text : String}
    (h : t.Chain path targets text)
    (hEdited : ∀ other ∈ edits.map Prod.fst,
      Relation.ReflTransGen (t.Passes (edits.map Prod.fst)) path other →
      t.token? other ≠ none → ∃ targets text, (t.setAll edits).Chain other targets text) :
    ∃ targets text, (t.setAll edits).Chain path targets text := by
  induction h with
  | @literal path text token hToken hParsed =>
    by_cases hPath : path ∈ edits.map Prod.fst
    · exact hEdited path hPath .refl (by rw [hToken]; exact nofun)
    · rw [← token?_setAll_of_not_mem t hPath] at hToken
      exact ⟨[], text, .literal hToken hParsed⟩
  | @step path text token target targets hToken hParsed hRest ih =>
    by_cases hPath : path ∈ edits.map Prod.fst
    · exact hEdited path hPath .refl (by rw [hToken]; exact nofun)
    · have hPasses : t.Passes (edits.map Prod.fst) path target.dotted :=
        ⟨hPath, token, target, hToken, hParsed, rfl⟩
      obtain ⟨targets', text', hNext⟩ := ih fun other hOther hReach =>
        hEdited other hOther (.head hPasses hReach)
      rw [← token?_setAll_of_not_mem t hPath] at hToken
      exact ⟨target :: targets', text', .step hToken hParsed hNext⟩

/-- **The tokens of a conforming tree have no issues after edits**, if the edited ones that are
listed fit their paths, and chains lead from all edited ones to literals. -/
theorem tokenIssues_setAll (hConforms : t.issues = [])
    (hHeads : ∀ e ∈ edits, (Text.cut '.' e.1).head? ≠ some "")
    (hFits : ∀ path ∈ edits.map Prod.fst, IsPlainPath path → ∀ token,
      (t.setAll edits).token? path = some token → Fits path token)
    (hChains : ∀ path ∈ edits.map Prod.fst, (t.setAll edits).token? path ≠ none →
      ∃ targets text, (t.setAll edits).Chain path targets text) :
    tokenIssues (t.setAll edits) = [] := by
  refine tokenIssues_eq_nil_iff.mpr fun path token hListed => ?_
  rcases mem_tokens_setAll hHeads hListed with ⟨hPath, hPlain, hToken⟩ | hOld
  · obtain ⟨targets, text, hChain⟩ := hChains path hPath (by rw [hToken]; exact nofun)
    exact ⟨hFits path hPath hPlain token hToken,
      fun _ _ => ⟨text, resolve_eq_ok_iff.mpr ⟨targets, hChain⟩⟩⟩
  · obtain ⟨hOldFits, hOldResolves⟩ := (conforms_iff.mp hConforms).2 path token hOld
    refine ⟨hOldFits, fun q hAlias => ?_⟩
    obtain ⟨text, hText⟩ := hOldResolves q hAlias
    obtain ⟨targets, hBefore⟩ := resolve_eq_ok_iff.mp hText
    obtain ⟨targets', text', hChain⟩ := chain_setAll hBefore fun other hOther _ hThere =>
      hChains other hOther (exists_token_setAll hThere edits)
    exact ⟨text', resolve_eq_ok_iff.mpr ⟨targets', hChain⟩⟩

/-- **A conforming tree conforms after edits**, if beside that the parts of a complete tree are
kept. -/
theorem conforms_setAll (hConforms : t.issues = [])
    (hHeads : ∀ e ∈ edits, (Text.cut '.' e.1).head? ≠ some "")
    (hStructure : structureIssues (t.setAll edits) = [])
    (hFits : ∀ path ∈ edits.map Prod.fst, IsPlainPath path → ∀ token,
      (t.setAll edits).token? path = some token → Fits path token)
    (hChains : ∀ path ∈ edits.map Prod.fst, (t.setAll edits).token? path ≠ none →
      ∃ targets text, (t.setAll edits).Chain path targets text) :
    (t.setAll edits).issues = [] := by
  rw [issues, hStructure, tokenIssues_setAll hConforms hHeads hFits hChains]
  rfl

end DesignSystem.Tree
