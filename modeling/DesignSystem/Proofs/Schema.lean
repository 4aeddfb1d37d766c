import DesignSystem.Proofs.Tree.Conformity
import DesignSystem.Proofs.Tree.Keys
import DesignSystem.Proofs.Tree.References
/-!
# What checking decides

`MeetsSchema` says what is asked of a tree, by the keys that lead to its groups and tokens and with no
mention of paths as texts, of traversals or of issues. Checking goes another way: it looks groups and
tokens up by dotted paths, lists the tokens under such paths, cuts the paths again to infer kinds
from them, and follows aliases from path to path. Where no key is empty or holds a dot, the two
agree: a tree has no issues exactly if it meets the schema (`checking_decides_schema`).

The parts are compared one by one: the scales (`scaleIssues_eq_nil_iff_keys`), the roles and groups,
the literals of colors (`isColor_iff`), and what is asked of every token (`fits_iff`). Keys without dots
are needed for the tokens alone, as they are what a listed path and the keys of a token have in
common (`HasPlainKeys.forall_tokens_iff`).
-/

namespace DesignSystem

open Schema

/-! ### Colors -/

/-- The digits of hexadecimal numbers. -/
def Schema.hexDigits : List Char :=
  "0123456789abcdefABCDEF".toList

/-- Between its outer blanks the literal is not empty, and if it begins with a hash sign, three,
four, six or eight hexadecimal digits are all that follows. -/
def Schema.IsColor (literal : String) : Prop :=
  (Text.trim literal).toList ≠ [] ∧
    ∀ digits, (Text.trim literal).toList = '#' :: digits →
      digits.length ∈ [3, 4, 6, 8] ∧ ∀ c ∈ digits, c ∈ hexDigits

theorem Schema.isHexDigit_iff (c : Char) : isHexDigit c = true ↔ c ∈ hexDigits := by
  constructor
  · intro hDigit
    have hRange : 48 ≤ c.toNat ∧ c.toNat ≤ 57 ∨ 97 ≤ c.toNat ∧ c.toNat ≤ 102 ∨
        65 ≤ c.toNat ∧ c.toNat ≤ 70 := by
      simp only [isHexDigit, Char.isDigit, Bool.or_eq_true, Bool.and_eq_true,
        decide_eq_true_eq] at hDigit
      rcases hDigit with (hDigit | hSmall) | hBig
      · exact .inl hDigit
      · exact .inr (.inl hSmall)
      · exact .inr (.inr hBig)
    have hAll : ∀ n, n < 103 → 48 ≤ n ∧ n ≤ 57 ∨ 97 ≤ n ∧ n ≤ 102 ∨ 65 ≤ n ∧ n ≤ 70 →
        Char.ofNat n ∈ hexDigits := by
      decide
    have hMem := hAll c.toNat (by omega) hRange
    rwa [Char.ofNat_toNat] at hMem
  · have hAll : hexDigits.all isHexDigit = true := by
      decide
    exact List.all_eq_true.mp hAll c

theorem Schema.isColor_iff (literal : String) : isColor literal = true ↔ IsColor literal := by
  unfold isColor IsColor
  split
  · rename_i hEmpty
    simp [hEmpty]
  · rename_i digits hHash
    have hDigits : digits.all isHexDigit = true ↔ ∀ c ∈ digits, c ∈ hexDigits := by
      simp only [List.all_eq_true, isHexDigit_iff]
    rw [Bool.and_eq_true, hDigits, List.contains_iff_mem, hHash]
    constructor
    · intro h
      refine ⟨List.cons_ne_nil _ _, ?_⟩
      rintro others hEq
      cases hEq
      exact h
    · rintro ⟨-, h⟩
      exact h digits rfl
  · rename_i hEmpty hHash
    refine iff_of_true rfl ⟨hEmpty, fun digits hEq => absurd hEq (hHash digits)⟩

namespace Tree

variable {t : Tree} {path : String} {keys : List String} {token : Token}

/-! ### The schema -/

/-- There is a group under the keys. -/
def HasGroup (t : Tree) (keys : List String) : Prop :=
  ∃ members, t.asNode.at? keys = some (.group members)

/-- There is a token under the keys. -/
def HasToken (t : Tree) (keys : List String) : Prop :=
  ∃ token, t.tokenAt? keys = some token

/-- The token is the one under the keys, of which none is reserved. -/
def Leaf (t : Tree) (keys : List String) (token : Token) : Prop :=
  t.tokenAt? keys = some token ∧ ∀ key ∈ keys, isReserved key = false

/-- What the schema asks of a tree. -/
structure MeetsSchema (t : Tree) : Prop where
  /-- Every scale has a token at each step and is represented by an alias. -/
  scales : ∀ scale ∈ Palette.scales, t.HasGroup ["color", scale] ∧
    (∀ step ∈ Palette.steps, t.HasToken ["color", scale, step]) ∧
    ∃ token target, t.tokenAt? ["color", scale, defaultKey] = some token ∧
      token.parsed = .aliasTo target
  /-- Every role has a color. -/
  roles : ∀ role ∈ Palette.roles, t.HasToken ["color", role]
  /-- The groups are there. -/
  groups : ∀ keys ∈ [["geometry", "spacing"], ["geometry", "border"], ["geometry", "radius"],
    ["typography", "fontFamily"], ["typography", "fontSize"], ["typography", "fontWeight"],
    ["typography", "lineHeight"], ["effect", "shadow"]], t.HasGroup keys
  /-- Below the four main groups tokens have the kind that their keys call for. -/
  kinds : ∀ keys token, t.Leaf keys token →
    (∃ first ∈ ["color", "geometry", "typography", "effect"], keys.head? = some first) →
    token.kind = Token.Kind.infer keys
  /-- Literals of colors are well formed. -/
  colors : ∀ keys token text, t.Leaf keys token → token.kind = .color →
    token.parsed = .literal text → Schema.IsColor text
  /-- Aliases lead to a literal, and none to a scale's representative. -/
  aliases : ∀ keys token target, t.Leaf keys token → token.parsed = .aliasTo target →
    target.segments.getLast? ≠ some defaultKey ∧
      ∃ targets text, t.Chain (Text.glue '.' keys) targets text

/-! ### Scales, roles and groups -/

theorem group?_ne_none_iff : t.group? path ≠ none ↔ t.HasGroup (Text.cut '.' path) := by
  rw [group?, node?, HasGroup]
  constructor
  · intro hGroup
    obtain ⟨members, hSome⟩ := Option.ne_none_iff_exists'.mp hGroup
    obtain ⟨n, hNode, hMembers⟩ := Option.bind_eq_some_iff.mp hSome
    cases n with
    | token old => cases hMembers
    | metadata v => cases hMembers
    | group inner => exact ⟨inner, hNode⟩
  · rintro ⟨members, hNode⟩
    rw [hNode]
    exact Option.some_ne_none _

theorem hasToken_iff : t.HasToken keys ↔ t.tokenAt? keys ≠ none :=
  Option.ne_none_iff_exists'.symm

theorem token?_ne_none_iff : t.token? path ≠ none ↔ t.HasToken (Text.cut '.' path) := by
  rw [token?_eq, hasToken_iff]

/-- A scale without issues is what the schema asks for. -/
theorem scaleIssues_eq_nil_iff_keys {scale : String}
    (hCut : Text.cut '.' ("color." ++ scale) = ["color", scale]) :
    scaleIssues t scale = [] ↔ t.HasGroup ["color", scale] ∧
      (∀ step ∈ Palette.steps, t.HasToken ["color", scale, step]) ∧
      ∃ token target, t.tokenAt? ["color", scale, defaultKey] = some token ∧
        token.parsed = .aliasTo target := by
  have hStep : ∀ step, stepKeys scale step = ["color", scale, step] := by
    intro step
    rw [stepKeys, hCut]
    rfl
  simp only [scaleIssues_eq_nil_iff, group?_ne_none_iff, hCut, hStep, List.forall_mem_append,
    List.forall_mem_singleton, hasToken_iff]
  refine and_congr_right fun _ => ?_
  constructor
  · rintro ⟨⟨hSteps, hDefault⟩, hAlias⟩
    obtain ⟨token, hToken⟩ := Option.ne_none_iff_exists'.mp hDefault
    refine ⟨hSteps, token, ?_⟩
    have hTarget := hAlias token hToken
    cases hParsed : token.parsed with
    | literal text =>
      rw [hParsed] at hTarget
      cases hTarget
    | aliasTo target => exact ⟨target, hToken, rfl⟩
  · rintro ⟨hSteps, token, target, hToken, hParsed⟩
    refine ⟨⟨hSteps, by rw [hToken]; exact Option.some_ne_none _⟩, ?_⟩
    intro other hOther
    cases hToken.symm.trans hOther
    rw [hParsed]
    rfl

/-! ### Tokens -/

theorem kindIssues_eq_nil_iff : kindIssues path token = [] ↔
    ((∃ first ∈ typedGroups, (Text.cut '.' path).head? = some first) →
      token.kind = Token.Kind.infer (Text.cut '.' path)) := by
  have hTyped : ((Text.cut '.' path).head?.map typedGroups.contains).getD false = true ↔
      ∃ first ∈ typedGroups, (Text.cut '.' path).head? = some first := by
    cases hHead : (Text.cut '.' path).head? with
    | none => simp
    | some first => simp
  simp only [kindIssues, hTyped]
  by_cases hFirst : ∃ first ∈ typedGroups, (Text.cut '.' path).head? = some first
  · by_cases hKind : token.kind = Token.Kind.infer (Text.cut '.' path)
    · simp [hKind]
    · simp [hFirst, hKind]
  · simp [hFirst]

/-- What is asked of a token by itself, in terms of its keys. -/
theorem fits_iff : Fits path token ↔
    ((∃ first ∈ typedGroups, (Text.cut '.' path).head? = some first) →
      token.kind = Token.Kind.infer (Text.cut '.' path)) ∧
    (∀ text, token.kind = .color → token.parsed = .literal text → Schema.IsColor text) ∧
    ∀ q, token.parsed = .aliasTo q → q.segments.getLast? ≠ some defaultKey := by
  have hDefault : ∀ q : Token.Target, q.isDefault = false ↔
      q.segments.getLast? ≠ some defaultKey := by
    intro q
    rw [Token.Target.isDefault, beq_eq_false_iff_ne]
  constructor
  · rintro ⟨hKind, hColor, hTarget⟩
    refine ⟨kindIssues_eq_nil_iff.mp hKind, fun text hIsColor hText => ?_, fun q hq => ?_⟩
    · exact (isColor_iff text).mp (hColor text hText hIsColor)
    · exact (hDefault q).mp (hTarget q hq)
  · rintro ⟨hKind, hColor, hTarget⟩
    refine ⟨kindIssues_eq_nil_iff.mpr hKind, fun text hText hIsColor => ?_, fun q hq => ?_⟩
    · exact (isColor_iff text).mpr (hColor text hIsColor hText)
    · exact (hDefault q).mpr (hTarget q hq)

/-- **Listed tokens are the leaves**, with paths that are cut into the keys. -/
theorem HasPlainKeys.forall_tokens_iff (hKeys : t.HasPlainKeys)
    {p : String → List String → Token → Prop} :
    (∀ path token, (path, token) ∈ t.tokens → p path (Text.cut '.' path) token) ↔
      ∀ keys token, t.Leaf keys token → p (Text.glue '.' keys) keys token := by
  constructor
  · intro h keys token hLeaf
    have hListed := mem_listing_iff.mpr hLeaf
    have hCut : Text.cut '.' (Text.glue '.' keys) = keys := by
      refine Text.cut_glue (Node.ne_nil_of_mem_memberListing hListed) fun key hKey => ?_
      exact (hKeys key (listing_keys hListed key hKey)).2
    have hToken := h (Text.glue '.' keys) token
    rw [hKeys.mem_tokens_iff, hCut] at hToken
    exact hToken hListed
  · intro h path token hListed
    have hToken := h (Text.cut '.' path) token
      (mem_listing_iff.mp (hKeys.mem_tokens_iff.mp hListed))
    rwa [Text.glue_cut] at hToken

/-! ### The statement -/

/-- **Checking decides the schema.** Where no key is empty or holds a dot, a tree has no issues
exactly if it meets the schema. -/
theorem checking_decides_schema {t : Tree} (hKeys : t.HasPlainKeys) :
    t.issues = [] ↔ t.MeetsSchema := by
  have hScaleKeys : ∀ scale ∈ Palette.scales,
      Text.cut '.' ("color." ++ scale) = ["color", scale] := by
    decide
  have hRoleKeys : ∀ role ∈ Palette.roles,
      Text.cut '.' ("color." ++ role) = ["color", role] := by
    decide
  have hGroupKeys : Schema.groups.map (Text.cut '.') = [["geometry", "spacing"],
      ["geometry", "border"], ["geometry", "radius"], ["typography", "fontFamily"],
      ["typography", "fontSize"], ["typography", "fontWeight"], ["typography", "lineHeight"],
      ["effect", "shadow"]] := by
    decide
  have hTokens := hKeys.forall_tokens_iff (p := fun path keys token =>
    (((∃ first ∈ typedGroups, keys.head? = some first) → token.kind = Token.Kind.infer keys) ∧
      (∀ text, token.kind = .color → token.parsed = .literal text → Schema.IsColor text) ∧
      ∀ q, token.parsed = .aliasTo q → q.segments.getLast? ≠ some defaultKey) ∧
    ∀ q, token.parsed = .aliasTo q → ∃ text targets, t.Chain path targets text)
  simp only [conforms_iff, structureIssues_eq_nil_iff, fits_iff, resolve_eq_ok_iff, hTokens]
  constructor
  · rintro ⟨⟨hScales, hRoles, hGroups⟩, hLeaves⟩
    refine ⟨fun scale hScale => ?_, fun role hRole => ?_, ?_, ?_, ?_, ?_⟩
    · exact (scaleIssues_eq_nil_iff_keys (hScaleKeys scale hScale)).mp (hScales scale hScale)
    · rw [← hRoleKeys role hRole]
      exact token?_ne_none_iff.mp (hRoles role hRole)
    · rw [← hGroupKeys, List.forall_mem_map]
      exact fun path hPath => group?_ne_none_iff.mp (hGroups path hPath)
    · exact fun keys token hLeaf hFirst => (hLeaves keys token hLeaf).1.1 hFirst
    · exact fun keys token text hLeaf => (hLeaves keys token hLeaf).1.2.1 text
    · intro keys token target hLeaf hAlias
      obtain ⟨text, targets, hChain⟩ := (hLeaves keys token hLeaf).2 target hAlias
      exact ⟨(hLeaves keys token hLeaf).1.2.2 target hAlias, targets, text, hChain⟩
  · rintro ⟨hScales, hRoles, hGroups, hKinds, hColors, hAliases⟩
    rw [← hGroupKeys, List.forall_mem_map] at hGroups
    refine ⟨⟨fun scale hScale => ?_, fun role hRole => ?_, fun path hPath => ?_⟩, ?_⟩
    · exact (scaleIssues_eq_nil_iff_keys (hScaleKeys scale hScale)).mpr (hScales scale hScale)
    · rw [token?_ne_none_iff, hRoleKeys role hRole]
      exact hRoles role hRole
    · exact group?_ne_none_iff.mpr (hGroups path hPath)
    · intro keys token hLeaf
      refine ⟨⟨hKinds keys token hLeaf, fun text => hColors keys token text hLeaf, ?_⟩, ?_⟩
      · exact fun q hq => (hAliases keys token q hLeaf hq).1
      · intro q hq
        obtain ⟨-, targets, text, hChain⟩ := hAliases keys token q hLeaf hq
        exact ⟨text, targets, hChain⟩

/-- The tree with an alias of a token under a reserved key meets the schema: nothing is asked of that
token, but the chain of the alias may lead through it. -/
theorem accented_meets_schema : accented.HasPlainKeys ∧ accented.MeetsSchema := by
  have hKeys : accented.HasPlainKeys := by
    decide +kernel
  exact ⟨hKeys, (checking_decides_schema hKeys).mp accented_issues⟩

end Tree

end DesignSystem
