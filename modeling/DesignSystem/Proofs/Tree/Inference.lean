import DesignSystem.Proofs.Tree.Keys
import DesignSystem.Proofs.Tree.Reload
import DesignSystem.Schema
/-!
# Kinds that are inferred

Three parts of the program infer the kind of a token from the keys that lead to it: an edit that
makes the token, the loader where a type is missing, and the check of a tree. An edit takes the keys
from the path that it is given, the loader collects them on its way down, and the check cuts the
listed paths into keys again.

`withoutTypes` leaves out the types of all tokens in a document. A node that is loaded from such a
document comes back exactly if every token in it has the kind that its keys call for
(`reloadUntyped_eq_iff`). Edits keep this (`HasInferredKinds.set`), and it is all that the check asks
of kinds (`HasInferredKinds.problem_ne_wrongKind`). So **for a tree made by edits alone the three
infer the same kinds** (`untyped_reload_and_no_wrongKind`).
-/

namespace DesignSystem

namespace Keyed

variable {α : Type u}

/-- Entries without a key hold under every other key what they held. -/
theorem get?_filter_ne (es : Keyed α) (key other : String) :
    get? (es.filter fun e => e.1 ≠ key) other = if key = other then none else get? es other := by
  induction es with
  | nil =>
    rw [List.filter_nil, get?_nil, ite_self]
  | cons e rest ih =>
    obtain ⟨k, v⟩ := e
    by_cases hKey : k = key
    · rw [List.filter_cons_of_neg (by simpa using hKey), ih, get?_cons, hKey]
      split
      · rfl
      · rfl
    · rw [List.filter_cons_of_pos (by simpa using hKey), get?_cons, get?_cons, ih]
      by_cases hOther : k = other
      · rw [if_pos hOther, if_pos hOther, if_neg fun hSame => hKey (hOther.trans hSame.symm)]
      · rw [if_neg hOther, if_neg hOther]

end Keyed

namespace Tree

variable {t : Tree}

namespace Node

/-! ### Documents without types -/

mutual

/-- The document of a node with the types of all tokens in it left out. An object with a `value` is
a token. -/
def withoutTypes : Json → Json
  | .object entries =>
    if Keyed.has entries "value" then .object (entries.filter fun e => e.1 ≠ "type")
    else .object (entriesWithoutTypes entries)
  | j => j

/-- The entries of a group with the types of all tokens in them left out. -/
def entriesWithoutTypes : List (String × Json) → List (String × Json)
  | [] => []
  | (key, j) :: es => (key, withoutTypes j) :: entriesWithoutTypes es

end

theorem withoutTypes_of_not_object {j : Json} (h : j.isObject = false) : withoutTypes j = j := by
  cases j with
  | null | bool b | number n | string s | array items => rfl
  | object entries => cases h

theorem entriesWithoutTypes_eq_map (entries : List (String × Json)) :
    entriesWithoutTypes entries = entries.map fun e => (e.1, withoutTypes e.2) := by
  induction entries with
  | nil => rfl
  | cons e es ih => rw [entriesWithoutTypes, ih, List.map_cons]

theorem keys_entriesWithoutTypes (entries : List (String × Json)) :
    (entriesWithoutTypes entries).map Prod.fst = entries.map Prod.fst := by
  rw [entriesWithoutTypes_eq_map, List.map_map]
  rfl

theorem ordered_entriesWithoutTypes {entries : Keyed Json} (hKeys : Keyed.Ordered entries)
    (hValues : ∀ e ∈ entries, (withoutTypes e.2).Ordered) :
    (Json.object (entriesWithoutTypes entries)).Ordered := by
  refine ⟨Keyed.ordered_of_keys (keys_entriesWithoutTypes entries) hKeys, ?_⟩
  rw [Json.entriesOrdered_iff, entriesWithoutTypes_eq_map]
  intro e he
  obtain ⟨d, hd, rfl⟩ := List.mem_map.mp he
  exact hValues d hd

/-- Leaving out types keeps the entries in key order. -/
theorem ordered_withoutTypes {j : Json} (h : j.Ordered) : (withoutTypes j).Ordered := by
  induction j using Json.induction with
  | null | bool b | number n | string s | array items => exact h
  | object entries ih =>
    obtain ⟨hKeys, hValues⟩ := h
    have hEntries := Json.entriesOrdered_iff.mp hValues
    rw [withoutTypes]
    split
    · refine ⟨hKeys.filter _, Json.entriesOrdered_iff.mpr fun e he => ?_⟩
      exact hEntries e (List.mem_of_mem_filter he)
    · exact ordered_entriesWithoutTypes hKeys fun e he => ih e he (hEntries e he)

/-! ### Nodes that are loaded without types -/

/-- What comes back of a node that is saved, and loaded with the types of its tokens left out. -/
def reloadUntyped (path : List String) (n : Node) : Node :=
  ofJson path (withoutTypes n.toJson.inKeyOrder)

/-- Without its type, an object gives the same token but for the kind, which is inferred. -/
theorem tokenOfEntries_filter (path : List String) (entries : Keyed Json) :
    tokenOfEntries path (entries.filter fun e => e.1 ≠ "type") =
      { tokenOfEntries path entries with kind := Token.Kind.infer path } := by
  have hValue : ¬"type" = "value" := by decide
  have hDescription : ¬"type" = "description" := by decide
  simp only [tokenOfEntries, Keyed.get?_filter_ne, if_neg hValue, if_neg hDescription, if_true,
    Option.bind_none, Option.getD_none]

theorem reloadUntyped_token (path : List String) (token : Token) :
    (Node.token token).reloadUntyped path =
      .token { token with kind := Token.Kind.infer path } := by
  have hValue := has_value_tokenEntries token
  have hKept : Keyed.has ((Keyed.ofList (tokenEntries token)).filter fun e => e.1 ≠ "type")
      "value" = true := by
    rw [Keyed.has, Keyed.get?_filter_ne, if_neg (by decide)]
    exact hValue
  rw [reloadUntyped, inKeyOrder_token, withoutTypes, if_pos hValue, ofJson, if_pos hKept,
    tokenOfEntries_filter, tokenOfEntries_tokenEntries]

/-- The members of a group come back one by one. -/
theorem ofList_membersOfEntries_untyped {members : List (String × Node)}
    (hOrdered : Keyed.Ordered members) (path : List String) :
    Keyed.ofList (membersOfEntries path (entriesWithoutTypes (savedEntries members))) =
      members.map fun e => (e.1, e.2.reloadUntyped (path ++ [e.1])) := by
  have hKeys := (keys_membersOfEntries path _).trans
    ((keys_entriesWithoutTypes _).trans (keys_savedEntries members))
  rw [Keyed.ofList_of_keys hKeys hOrdered, membersOfEntries_eq_map, entriesWithoutTypes_eq_map,
    savedEntries, List.map_map, List.map_map]
  rfl

theorem reloadUntyped_group {members : List (String × Node)} (hOrdered : Keyed.Ordered members)
    (hLacks : Keyed.has members "value" = false) (path : List String) :
    (Node.group members).reloadUntyped path =
      .group (members.map fun e => (e.1, e.2.reloadUntyped (path ++ [e.1]))) := by
  have hSaved : Keyed.has (savedEntries members) "value" = false :=
    (Keyed.has_eq_of_keys (keys_savedEntries members) "value").trans hLacks
  have hKept : Keyed.has (entriesWithoutTypes (savedEntries members)) "value" = false :=
    (Keyed.has_eq_of_keys (keys_entriesWithoutTypes _) "value").trans hSaved
  rw [reloadUntyped, inKeyOrder_group hOrdered, withoutTypes, if_neg (Bool.eq_false_iff.mp hSaved),
    ofJson, if_neg (Bool.eq_false_iff.mp hKept), ofList_membersOfEntries_untyped hOrdered]

/-- Every token in a node has the kind that the keys from the root call for, the node being at
`path`. -/
def HasInferredKinds (path : List String) (n : Node) : Prop :=
  ∀ keys token, n.at? keys = some (.token token) → token.kind = Token.Kind.infer (path ++ keys)

theorem hasInferredKinds_token_iff {path : List String} {token : Token} :
    (Node.token token).HasInferredKinds path ↔ token.kind = Token.Kind.infer path := by
  constructor
  · intro h
    have hRoot := h [] token rfl
    rwa [List.append_nil] at hRoot
  · intro h keys other hAt
    cases keys with
    | nil =>
      cases hAt
      rwa [List.append_nil]
    | cons key rest => cases hAt

theorem hasInferredKinds_group_iff {path : List String} {members : Keyed Node}
    (hOrdered : Keyed.Ordered members) : (Node.group members).HasInferredKinds path ↔
      ∀ e ∈ members, e.2.HasInferredKinds (path ++ [e.1]) := by
  constructor
  · intro h e he keys token hAt
    have hFull := h (e.1 :: keys) token (by
      rw [at?, Keyed.get?_of_mem hOrdered he, Option.bind_some, hAt])
    rwa [List.append_cons] at hFull
  · intro h keys token hAt
    cases keys with
    | nil => cases hAt
    | cons key rest =>
      obtain ⟨n, hGet, hRest⟩ := Option.bind_eq_some_iff.mp hAt
      rw [List.append_cons]
      exact h _ (Keyed.mem_of_get? hGet) rest token hRest

/-- **Without types a node comes back exactly if all kinds in it are inferred.** -/
theorem reloadUntyped_eq_iff {n : Node} (hOrdered : n.Ordered)
    (hForm : n.Holds fun m => m.LacksValue ∧ m.MetadataIs Json.IsPlain) (path : List String) :
    n.reloadUntyped path = n ↔ n.HasInferredKinds path := by
  induction n using Node.induction generalizing path with
  | token token =>
    rw [reloadUntyped_token, hasInferredKinds_token_iff]
    constructor
    · intro h
      exact (congrArg Token.kind (Node.token.inj h)).symm
    · intro h
      rw [← h]
  | metadata v =>
    obtain ⟨-, hObject, hValue⟩ := (holds_iff_of_isEnd (n := .metadata v) trivial).mp hForm
    have hSame : (Node.metadata v).reloadUntyped path = .metadata v := by
      rw [reloadUntyped, toJson, Json.inKeyOrder_of_ordered hValue,
        withoutTypes_of_not_object hObject, ofJson_of_not_object hObject]
    refine iff_of_true hSame fun keys token hAt => ?_
    cases keys with
    | nil => cases hAt
    | cons key rest => cases hAt
  | group members ih =>
    obtain ⟨hKeys, hMembers⟩ := hOrdered
    obtain ⟨⟨hLacks, -⟩, hInner⟩ := (holds_group_iff hKeys).mp hForm
    rw [reloadUntyped_group hKeys hLacks, Node.group.injEq, Keyed.map_values_eq_self_iff,
      hasInferredKinds_group_iff hKeys]
    refine forall₂_congr fun e he => ?_
    exact ih e he (membersOrdered_iff.mp hMembers e he) (hInner e he) (path ++ [e.1])

end Node

/-! ### Trees that are loaded without types -/

/-- The document of a tree with the types of all tokens left out. The root is no token. -/
def docWithoutTypes : Json → Json
  | .object entries => .object (Node.entriesWithoutTypes entries)
  | j => j

theorem ordered_docWithoutTypes {j : Json} (h : j.Ordered) : (docWithoutTypes j).Ordered := by
  cases j with
  | null | bool b | number n | string s | array items => exact h
  | object entries =>
    obtain ⟨hKeys, hValues⟩ := h
    apply Node.ordered_entriesWithoutTypes hKeys
    intro e he
    exact Node.ordered_withoutTypes (Json.entriesOrdered_iff.mp hValues e he)

/-- The value of a tree with the types of all tokens left out. -/
def withoutTypes (v : Json.Value) : Json.Value :=
  ⟨docWithoutTypes v.doc, ordered_docWithoutTypes v.ordered⟩

/-- Every token has the kind that its keys call for. -/
def HasInferredKinds (t : Tree) : Prop :=
  ∀ keys token, t.tokenAt? keys = some token → token.kind = Token.Kind.infer keys

theorem hasInferredKinds_iff :
    t.HasInferredKinds ↔ ∀ e ∈ t.members, e.2.HasInferredKinds [e.1] := by
  have hRoot : t.HasInferredKinds ↔ t.asNode.HasInferredKinds [] :=
    forall₂_congr fun keys token => by rw [tokenAt?_eq_some_iff, List.nil_append]
  rw [hRoot, asNode, Node.hasInferredKinds_group_iff t.ordered.1]
  rfl

/-- **Without types a tree comes back exactly if all its kinds are inferred**, provided that its
groups and its metadata come back at all. -/
theorem ofValue_withoutTypes_iff (hPlain : t.asNode.Holds (Node.MetadataIs Json.IsPlain))
    (hLacks : t.LacksInnerValue) :
    ofValue (withoutTypes t.toValue) = .ok t ↔ t.HasInferredKinds := by
  have hDoc : (withoutTypes t.toValue).doc =
      .object (Node.entriesWithoutTypes (Node.savedEntries t.members)) :=
    congrArg docWithoutTypes (Node.inKeyOrder_group t.ordered.1)
  have hInner := ((Node.holds_group_iff t.ordered.1).mp hPlain).2
  have hGroups := lacksInnerValue_iff.mp hLacks
  rw [ofValue, hDoc, ofJson, Except.ok.injEq, Tree.ext_iff, hasInferredKinds_iff]
  show Keyed.ofList (Node.membersOfEntries [] _) = t.members ↔ _
  rw [Node.ofList_membersOfEntries_untyped t.ordered.1, Keyed.map_values_eq_self_iff]
  refine forall₂_congr fun e he => ?_
  apply Node.reloadUntyped_eq_iff (Node.membersOrdered_iff.mp t.ordered.2 e he)
  intro keys m hAt
  exact ⟨hGroups e he keys m hAt, hInner e he keys m hAt⟩

/-! ### Edits -/

theorem hasInferredKinds_empty : empty.HasInferredKinds := by
  intro keys token hToken
  rw [tokenAt?_eq_some_iff] at hToken
  cases keys <;> cases hToken

/-- **An edit makes tokens of the inferred kind**, and leaves the kinds of others. -/
theorem HasInferredKinds.set (h : t.HasInferredKinds) (path value : String) :
    (t.set path value).HasInferredKinds := by
  intro keys token hToken
  by_cases hKeys : keys = Text.cut '.' path
  · by_cases hBlocks : t.Blocks path
    · rw [set_of_blocks hBlocks] at hToken
      exact h keys token hToken
    · rw [hKeys, ← token?_eq, token?_set_self hBlocks] at hToken
      rw [← Option.some.inj hToken, hKeys]
      cases hOld : t.token? path with
      | none => rfl
      | some old => exact h _ old hOld
  · rw [tokenAt?_set_of_ne t hKeys] at hToken
    exact h keys token hToken

theorem HasInferredKinds.setAll (h : t.HasInferredKinds) (edits : List (String × String)) :
    (t.setAll edits).HasInferredKinds := by
  induction edits generalizing t with
  | nil => exact h
  | cons e edits ih => exact ih (h.set e.1 e.2)

/-! ### The check -/

section Check

variable {i : Issue} {expected found : Token.Kind}

theorem structureIssues_ne_wrongKind (h : i ∈ Schema.structureIssues t) :
    i.problem ≠ .wrongKind expected found := by
  rw [Schema.structureIssues] at h
  rcases List.mem_append.mp h with h | hGroup
  · rcases List.mem_append.mp h with hScale | hRole
    · obtain ⟨scale, -, hScale⟩ := List.mem_flatMap.mp hScale
      unfold Schema.scaleIssues at hScale
      dsimp only at hScale
      split at hScale
      · rw [List.mem_singleton.mp hScale]
        rintro ⟨⟩
      · rcases List.mem_append.mp hScale with hStep | hDefault
        · obtain ⟨step, -, rfl⟩ := List.mem_map.mp hStep
          rintro ⟨⟩
        · split at hDefault
          · split at hDefault
            · cases hDefault
            · rw [List.mem_singleton.mp hDefault]
              rintro ⟨⟩
          · cases hDefault
    · obtain ⟨role, -, rfl⟩ := List.mem_map.mp hRole
      rintro ⟨⟩
  · obtain ⟨group, -, rfl⟩ := List.mem_map.mp hGroup
    rintro ⟨⟩

theorem valueIssues_ne_wrongKind {path : String} {token : Token}
    (h : i ∈ Schema.valueIssues t path token) : i.problem ≠ .wrongKind expected found := by
  unfold Schema.valueIssues at h
  split at h
  · split at h
    · rw [List.mem_singleton.mp h]
      rintro ⟨⟩
    · cases h
  · rcases List.mem_append.mp h with hDefault | hBroken
    · split at hDefault
      · rw [List.mem_singleton.mp hDefault]
        rintro ⟨⟩
      · cases hDefault
    · split at hBroken
      · cases hBroken
      · rw [List.mem_singleton.mp hBroken]
        rintro ⟨⟩

theorem kindIssues_of_inferred {path : String} {token : Token}
    (h : token.kind = Token.Kind.infer (Text.cut '.' path)) :
    Schema.kindIssues path token = [] := by
  rw [Schema.kindIssues, if_neg]
  rintro ⟨-, hKind⟩
  exact hKind h

/-- **No kind is found wrong if all kinds are inferred**: what the check cuts a listed path into are
the keys that lead to the token, if these are plain. -/
theorem HasInferredKinds.problem_ne_wrongKind (h : t.HasInferredKinds) (hPlain : t.HasPlainKeys)
    (hIssue : i ∈ t.issues) : i.problem ≠ .wrongKind expected found := by
  rcases List.mem_append.mp hIssue with hStructure | hTokens
  · exact structureIssues_ne_wrongKind hStructure
  · obtain ⟨⟨path, token⟩, hListed, hToken⟩ := List.mem_flatMap.mp hTokens
    have hKeys := (mem_listing_iff.mp (hPlain.mem_tokens_iff.mp hListed)).1
    rcases List.mem_append.mp hToken with hKind | hValue
    · rw [kindIssues_of_inferred (h _ token hKeys)] at hKind
      cases hKind
    · exact valueIssues_ne_wrongKind hValue

end Check

/-! ### The statement -/

/-- There is no metadata in a tree made by edits alone. -/
theorem plain_setAll_empty (edits : List (String × String)) :
    (empty.setAll edits).asNode.Holds (Node.MetadataIs Json.IsPlain) := by
  apply metadata_setAll
  intro keys m hAt
  cases keys with
  | nil =>
    cases hAt
    trivial
  | cons key rest => cases hAt

theorem lacksInnerValue_empty : empty.LacksInnerValue := by
  intro keys members hNe hAt
  obtain ⟨key, rest, rfl⟩ := List.exists_cons_of_ne_nil hNe
  cases hAt

/-- **Edits, the loader and the check infer the same kinds.** Let a tree be made by edits alone, of
which none leads through a key `value` below the root. If the types of all tokens are left out when
it is saved, it comes back nevertheless, and the check finds no token of a wrong kind in it. -/
theorem untyped_reload_and_no_wrongKind (edits : List (String × String))
    (hPaths : ∀ e ∈ edits, "value" ∉ (Text.cut '.' e.1).tail) :
    ofValue (withoutTypes (empty.setAll edits).toValue) = .ok (empty.setAll edits) ∧
      ∀ i ∈ (empty.setAll edits).issues, ∀ expected found,
        i.problem ≠ .wrongKind expected found := by
  have hKinds := hasInferredKinds_empty.setAll edits
  constructor
  · rw [ofValue_withoutTypes_iff (plain_setAll_empty edits) (lacksInnerValue_empty.setAll hPaths)]
    exact hKinds
  · intro i hIssue expected found
    exact hKinds.problem_ne_wrongKind (hasPlainKeys_empty.setAll edits) hIssue

/-- Edits that make tokens of several kinds; the last two are refused or change a token. -/
def mixedEdits : List (String × String) :=
  [("color.primary.500", "#336699"), ("typography.lineHeight.fontSize.tight", "1.2"),
    ("type.color", "4px"), ("value.$note", "x"), ("effect.type", "none"),
    ("color.primary", "red"), ("color.primary.500", "\x7btype.color\x7d")]

/-- The document holds the types until they are left out, and keeps a member that is named so. -/
theorem mixed_untyped_reload : (∀ e ∈ mixedEdits, "value" ∉ (Text.cut '.' e.1).tail) ∧
    (withoutTypes (empty.setAll mixedEdits).toValue).doc = .object [
      ("color", .object [("primary", .object [
        ("500", .object [("value", .string "\x7btype.color\x7d")])])]),
      ("effect", .object [("type", .object [("value", .string "none")])]),
      ("type", .object [("color", .object [("value", .string "4px")])]),
      ("typography", .object [("lineHeight", .object [("fontSize", .object [
        ("tight", .object [("value", .string "1.2")])])])]),
      ("value", .object [("$note", .object [("value", .string "x")])])] ∧
    ofValue (withoutTypes (empty.setAll mixedEdits).toValue) = .ok (empty.setAll mixedEdits) ∧
    ∀ i ∈ (empty.setAll mixedEdits).issues, ∀ expected found,
      i.problem ≠ .wrongKind expected found := by
  have hPaths : ∀ e ∈ mixedEdits, "value" ∉ (Text.cut '.' e.1).tail := by decide +kernel
  obtain ⟨hSame, hIssues⟩ := untyped_reload_and_no_wrongKind mixedEdits hPaths
  exact ⟨hPaths, by decide +kernel, hSame, hIssues⟩

end Tree

end DesignSystem
