import DesignSystem.Proofs.Tree.Chain
import DesignSystem.Proofs.Tree.Keys
import DesignSystem.Proofs.Tree.References
/-!
# References and aliases lead to the same value

Aliases are followed in two ways. `Tree.resolve` follows a chain from token to token, and the style
variables of a tree refer to each other, so that whoever reads them follows the chain there. Here
the second way is shown to come to the same literal.

Variables are named by keys with dashes between them, and a scale's representative gives its name
to the scale (`variableOf_eq`). Where no key holds a dash or is empty, different tokens have
different names (`variableOf_injective`): the name of a scale is free, since a group cannot be a
token. So every listed token shows in its own variable (`get?_flatten`), and `references_of_chain`
goes along the chain.
-/

namespace DesignSystem

namespace Tree

/-! ### Names -/

/-- The keys that name a token's variable: a representative's own key is left out below the root. -/
def collapse (keys : List String) : List String :=
  if keys.getLast? = some defaultKey ∧ keys.length ≠ 1 then keys.dropLast else keys

theorem collapse_of_ne {keys : List String} (h : keys.getLast? ≠ some defaultKey) :
    collapse keys = keys :=
  if_neg fun hBoth => h hBoth.1

theorem collapse_append_default {keys : List String} (h : keys ≠ []) :
    collapse (keys ++ [defaultKey]) = keys := by
  have hLength : (keys ++ [defaultKey]).length ≠ 1 := by
    have := List.length_pos_iff.mpr h
    rw [List.length_append, List.length_singleton]
    omega
  rw [collapse, if_pos ⟨List.getLast?_concat, hLength⟩, List.dropLast_concat]

theorem collapse_cases (keys : List String) :
    keys = collapse keys ∨ keys = collapse keys ++ [defaultKey] := by
  by_cases h : keys.getLast? = some defaultKey ∧ keys.length ≠ 1
  · obtain ⟨init, rfl⟩ := List.getLast?_eq_some_iff.mp h.1
    rw [collapse, if_pos h, List.dropLast_concat]
    exact .inr rfl
  · exact .inl (if_neg h).symm

/-- The representative of a scale has the name of the scale. -/
theorem stem_append_default {path : String} {keys : List String} (hNe : keys ≠ [])
    (hFront : path ≠ "" ∨ keys.head? ≠ some "") :
    stem path (keys ++ [defaultKey]) = extend '-' path (Text.glue '-' keys) := by
  induction keys generalizing path with
  | nil => exact absurd rfl hNe
  | cons key rest ih =>
    have hKey : extend '-' path key ≠ "" := extend_ne_empty_of_front hFront
    cases rest with
    | nil =>
      rw [List.cons_append, List.nil_append, stem, stem, variableStem, if_pos ⟨rfl, hKey⟩,
        Text.glue_singleton]
    | cons next rest =>
      have hNext : next :: rest ≠ [] := List.cons_ne_nil _ _
      rw [List.cons_append, stem_cons (List.append_ne_nil_of_left_ne_nil hNext _),
        ih hNext (.inl hKey), extend_extend_glue hNext hFront]

/-- **Variables are named by keys with dashes between them**, where the first key is not empty. -/
theorem variableOf_of_front {keys : List String} (hNe : keys ≠ []) (hHead : keys.head? ≠ some "") :
    variableOf keys = variablePrefix ++ Text.glue '-' (collapse keys) := by
  rw [variableOf]
  by_cases hLast : keys.getLast? = some defaultKey
  · obtain ⟨init, rfl⟩ := List.getLast?_eq_some_iff.mp hLast
    by_cases hInit : init = []
    · subst hInit
      rfl
    · have hFront : init.head? ≠ some "" := by
        rwa [List.head?_append_of_ne_nil init hInit] at hHead
      rw [stem_append_default hInit (.inr hFront), collapse_append_default hInit, extend_empty]
  · rw [stem_eq_extend hNe (.inr hHead) hLast, extend_empty, collapse_of_ne hLast]

theorem variableOf_eq {keys : List String} (hNe : keys ≠ []) (hKeys : ∀ key ∈ keys, key ≠ "") :
    variableOf keys = variablePrefix ++ Text.glue '-' (collapse keys) :=
  variableOf_of_front hNe fun hHead => hKeys "" (List.mem_of_mem_head? hHead) rfl

theorem collapse_ne_nil {keys : List String} (hNe : keys ≠ []) : collapse keys ≠ [] := by
  intro hNil
  rcases collapse_cases keys with hKeys | hKeys <;> rw [hNil] at hKeys
  · exact hNe hKeys
  · rw [hKeys] at hNil
    cases hNil

theorem mem_of_mem_collapse {keys : List String} {key : String} (h : key ∈ collapse keys) :
    key ∈ keys := by
  rcases collapse_cases keys with hKeys | hKeys <;> rw [hKeys]
  · exact h
  · exact List.mem_append_left _ h

/-! ### Different tokens have different names -/

/-- No token stands below another. -/
theorem not_listed_below {n : Node} (hOrdered : n.Ordered) {keys : List String} {key : String}
    {token token' : Token} (h : (keys, token) ∈ n.listing) :
    (keys ++ [key], token') ∉ n.listing := by
  intro hBelow
  obtain ⟨hAt, -⟩ := (Node.mem_listing_iff hOrdered).mp h
  obtain ⟨hAt', -⟩ := (Node.mem_listing_iff hOrdered).mp hBelow
  rw [Node.at?_append, hAt] at hAt'
  cases hAt'

/-- Two listed tokens have the same keys if they do when representatives are left out. -/
theorem collapse_injective {n : Node} (hOrdered : n.Ordered) {keys keys' : List String}
    {token token' : Token} (h : (keys, token) ∈ n.listing) (h' : (keys', token') ∈ n.listing)
    (hCollapse : collapse keys = collapse keys') : keys = keys' := by
  rcases collapse_cases keys with hKeys | hKeys <;> rcases collapse_cases keys' with hKeys' | hKeys'
  · rw [hKeys, hKeys', hCollapse]
  · rw [← hCollapse, ← hKeys] at hKeys'
    rw [hKeys'] at h'
    exact absurd h' (not_listed_below hOrdered h)
  · rw [hCollapse, ← hKeys'] at hKeys
    rw [hKeys] at h
    exact absurd h (not_listed_below hOrdered h')
  · rw [hKeys, hKeys', hCollapse]

/-- **Different tokens have different names**, where no key is empty or holds a dash. -/
theorem variableOf_injective {n : Node} (hOrdered : n.Ordered)
    (hKeys : ∀ key ∈ n.keys, key ≠ "" ∧ '-' ∉ key.toList) {keys keys' : List String}
    {token token' : Token} (h : (keys, token) ∈ n.listing) (h' : (keys', token') ∈ n.listing)
    (hNe : keys ≠ []) (hNe' : keys' ≠ [])
    (hName : variableOf keys = variableOf keys') : keys = keys' := by
  have hMem := Node.mem_keys_of_at? ((Node.mem_listing_iff hOrdered).mp h).1
  have hMem' := Node.mem_keys_of_at? ((Node.mem_listing_iff hOrdered).mp h').1
  rw [variableOf_eq hNe fun key hKey => (hKeys key (hMem key hKey)).1,
    variableOf_eq hNe' fun key hKey => (hKeys key (hMem' key hKey)).1,
    String.append_right_inj] at hName
  refine collapse_injective hOrdered h h' (Text.glue_injective (collapse_ne_nil hNe)
    (collapse_ne_nil hNe') (fun key hKey => ?_) (fun key hKey => ?_) hName)
  · exact (hKeys key (hMem key (mem_of_mem_collapse hKey))).2
  · exact (hKeys key (hMem' key (mem_of_mem_collapse hKey))).2

/-- **A listed token shows in its own variable.** -/
theorem get?_flatten {t : Tree} (hKeys : ∀ key ∈ t.asNode.keys, key ≠ "" ∧ '-' ∉ key.toList)
    {keys : List String} {token : Token} (h : (keys, token) ∈ t.asNode.listing) :
    Keyed.get? t.flatten (variableOf keys) = some token.style := by
  rw [flatten, Node.memberVariables_eq]
  refine Keyed.get?_ofList_of_agree (List.mem_map.mpr ⟨_, h, rfl⟩) fun e he hName => ?_
  obtain ⟨⟨keys', token'⟩, h', rfl⟩ := List.mem_map.mp he
  have hNe : keys ≠ [] := Node.ne_nil_of_mem_memberListing h
  have hNe' : keys' ≠ [] := Node.ne_nil_of_mem_memberListing h'
  have hSame := variableOf_injective t.ordered hKeys h' h hNe' hNe hName
  subst hSame
  obtain ⟨hAt, -⟩ := (Node.mem_listing_iff t.ordered).mp h
  obtain ⟨hAt', -⟩ := (Node.mem_listing_iff t.ordered).mp h'
  cases hAt.symm.trans hAt'
  rfl

/-! ### Along a chain -/

/-- The variable of a token outside reserved keys holds what the token's text becomes. -/
theorem get?_flatten_of_token? {t : Tree}
    (hKeys : ∀ key ∈ t.asNode.keys, key ≠ "" ∧ '-' ∉ key.toList) {path : String} {token : Token}
    (hToken : t.token? path = some token)
    (hReserved : ∀ key ∈ Text.cut '.' path, isReserved key = false) :
    Keyed.get? t.flatten (variableOf (Text.cut '.' path)) = some token.style :=
  get?_flatten hKeys (listed_of_token? hToken hReserved)

/-- **Along a chain every variable refers to the next**, and the last one holds the literal. -/
theorem references_of_chain {t : Tree}
    (hKeys : ∀ key ∈ t.asNode.keys, key ≠ "" ∧ '-' ∉ key.toList) {path text : String}
    {targets : List Token.Target} (h : t.Chain path targets text)
    (hReserved : ∀ key ∈ Text.cut '.' path, isReserved key = false)
    (hTargets : ∀ q ∈ targets, q.isDefault = false ∧ ∀ key ∈ q.segments, isReserved key = false) :
    let names := variableOf (Text.cut '.' path) :: targets.map Token.Target.variableName
    names.IsChain (fun name next => Keyed.get? t.flatten name = some ("var(" ++ next ++ ")")) ∧
      Keyed.get? t.flatten (names.getLast (List.cons_ne_nil _ _)) = some text := by
  intro names
  induction h with
  | @literal path text token hToken hParsed =>
    refine ⟨.singleton _, ?_⟩
    show Keyed.get? t.flatten (variableOf (Text.cut '.' path)) = some text
    rw [get?_flatten_of_token? hKeys hToken hReserved, Token.style, hParsed]
    rfl
  | @step path text token target targets hToken hParsed hRest ih =>
    obtain ⟨⟨hDefault, hSegments⟩, hLater⟩ := List.forall_mem_cons.mp hTargets
    obtain ⟨inner, hInner, hDotted⟩ := Token.ofDotted_of_parse hParsed
    have hCut := Token.Target.cut_dotted hDotted
    obtain ⟨next, hNextToken⟩ := hRest.exists_token
    have hHead : target.segments.head? ≠ some "" := by
      intro hEmpty
      have hMem := keys_of_token? hNextToken "" (hCut ▸ List.mem_of_mem_head? hEmpty)
      exact (hKeys "" hMem).1 rfl
    have hName := (variableOf_segments_iff hInner hDotted hDefault).mpr hHead
    rw [hCut] at ih
    have hNext := ih hSegments hLater
    rw [hName] at hNext
    refine ⟨.cons_cons ?_ hNext.1, hNext.2⟩
    rw [get?_flatten_of_token? hKeys hToken hReserved, Token.style, hParsed]
    rfl

/-! ### The statement -/

/-- **References lead where aliases lead.** In a tree that edits have made of the empty or the
built-in one, and whose keys hold no dash, let a listed path resolve to a literal. Then a chain of
aliases leads there, and if none of its targets is a representative or lies under a reserved key,
the variable of the path refers to that of the first target, this one to the next, and so on to a
variable that holds the literal. -/
theorem references_lead_to_resolved {start : Tree} (hStart : start = empty ∨ start = light)
    (edits : List (String × String)) {path text : String} {token : Token} :
    let t := start.setAll edits
    (∀ key ∈ t.asNode.keys, '-' ∉ key.toList) → (path, token) ∈ t.tokens →
      t.resolve path = .ok text → ∃ targets, t.Chain path targets text ∧
        ((∀ q ∈ targets, q.isDefault = false ∧ ∀ key ∈ q.segments, isReserved key = false) →
          let names := (variablePrefix ++ Text.glue '-' (collapse (Text.cut '.' path))) ::
            targets.map Token.Target.variableName
          names.IsChain (fun name next =>
              Keyed.get? t.flatten name = some ("var(" ++ next ++ ")")) ∧
            Keyed.get? t.flatten (names.getLast (List.cons_ne_nil _ _)) = some text) := by
  intro t hDashes hListed hResolve
  have hPlain : t.HasPlainKeys := by
    rcases hStart with rfl | rfl
    · exact hasPlainKeys_empty.setAll edits
    · exact hasPlainKeys_light.setAll edits
  have hKeys : ∀ key ∈ t.asNode.keys, key ≠ "" ∧ '-' ∉ key.toList :=
    fun key hKey => ⟨(hPlain key hKey).1, hDashes key hKey⟩
  obtain ⟨targets, hChain⟩ := resolve_eq_ok_iff.mp hResolve
  obtain ⟨hAt, hReserved⟩ :=
    (Node.mem_listing_iff t.ordered).mp (hPlain.mem_tokens_iff.mp hListed)
  have hPath := Node.mem_keys_of_at? hAt
  have hName := variableOf_eq (Text.cut_ne_nil '.' path) fun key hKey =>
    (hKeys key (hPath key hKey)).1
  refine ⟨targets, hChain, fun hTargets => ?_⟩
  rw [← hName]
  exact references_of_chain hKeys hChain hReserved hTargets

/-- The primary color of the built-in tree, once its step is edited, is found through the variable
of its scale. -/
theorem edited_step_shows_in_scale :
    let t := light.setAll [("color.primary.500", "#ff0000")]
    (∀ key ∈ t.asNode.keys, '-' ∉ key.toList) ∧
      ("color.primary.DEFAULT", ⟨"\x7bcolor.primary.500\x7d", .color, none⟩) ∈ t.tokens ∧
      t.resolve "color.primary.DEFAULT" = .ok "#ff0000" ∧
      Keyed.get? t.flatten "--ds-color-primary" = some "var(--ds-color-primary-500)" ∧
      Keyed.get? t.flatten "--ds-color-primary-500" = some "#ff0000" := by
  intro t
  have hDashes : ∀ key ∈ t.asNode.keys, '-' ∉ key.toList := by decide +kernel
  have hListed : ("color.primary.DEFAULT", ⟨"\x7bcolor.primary.500\x7d", .color, none⟩) ∈
      t.tokens := by decide +kernel
  have hScale : t.token? "color.primary.DEFAULT" =
      some ⟨"\x7bcolor.primary.500\x7d", .color, none⟩ := by decide +kernel
  have hStep : t.token? (Token.Target.ofDotted "color.primary.500").dotted =
      some ⟨"#ff0000", .color, none⟩ := by decide +kernel
  have hChain : t.Chain "color.primary.DEFAULT" [.ofDotted "color.primary.500"] "#ff0000" :=
    .step hScale (by decide +kernel) (.literal hStep (by decide +kernel))
  have hResolve : t.resolve "color.primary.DEFAULT" = .ok "#ff0000" :=
    resolve_eq_ok_iff.mpr ⟨_, hChain⟩
  obtain ⟨targets, hTargets, hNames⟩ :=
    references_lead_to_resolved (.inr rfl) _ hDashes hListed hResolve
  obtain ⟨rfl, -⟩ := hChain.unique hTargets
  obtain ⟨hRefers, hLast⟩ := hNames (by decide +kernel)
  have hName : variablePrefix ++ Text.glue '-' (collapse (Text.cut '.' "color.primary.DEFAULT")) =
      "--ds-color-primary" := by decide +kernel
  have hNext : (Token.Target.ofDotted "color.primary.500").variableName =
      "--ds-color-primary-500" := by decide +kernel
  rw [hName, List.map_cons, hNext, List.isChain_cons_cons] at hRefers
  exact ⟨hDashes, hListed, hResolve, hRefers.1, hNext ▸ hLast⟩

end Tree

end DesignSystem
