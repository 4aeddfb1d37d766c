import DesignSystem.Proofs.Tree.Variables
/-!
# Listing and looking up

A tree lists its tokens under paths that it puts together from keys, with no dot after an empty
path, and leaves out reserved keys. It looks a token up under keys that it gets by cutting a path at
its dots, and leaves out nothing. A document can make the two disagree, with a key that is empty or
holds a dot. Edits, the dark pass and merging cannot: they keep all keys plain
(`HasPlainKeys.set`, `HasPlainKeys.darken`, `HasPlainKeys.merge`), so on every tree that they make
from the empty tree or the built-in one (`Made`) the listing holds what is found under paths without
reserved keys, and every path once (`listing_agrees_with_lookup`).
-/

namespace DesignSystem.Tree

variable {t patch : Tree}

/-! ### What keeps keys plain -/

/-- The dark pass is a list of edits. -/
theorem HasPlainKeys.darken (h : t.HasPlainKeys) : t.darken.HasPlainKeys :=
  h.setAll _

/-- Merging adds no key but those of the patch. -/
theorem keys_merge {key : String} (hKey : key ∈ (t.merge patch).asNode.keys) :
    key ∈ t.asNode.keys ∨ key ∈ patch.asNode.keys := by
  obtain ⟨e, he, hKey⟩ := Node.mem_memberKeys_iff.mp hKey
  rcases Keyed.mem_setAll he with he | he
  · exact .inl (Node.mem_memberKeys_iff.mpr ⟨e, he, hKey⟩)
  · exact .inr (Node.mem_memberKeys_iff.mpr ⟨e, he, hKey⟩)

theorem HasPlainKeys.merge (h : t.HasPlainKeys) (hPatch : patch.HasPlainKeys) :
    (t.merge patch).HasPlainKeys := by
  intro key hKey
  rcases keys_merge hKey with hOld | hNew
  · exact h key hOld
  · exact hPatch key hNew

/-- The trees that are made without documents: from the empty tree and the built-in one by edits,
the dark pass and merging. -/
inductive Made : Tree → Prop
  | empty : Made empty
  | light : Made light
  | set {t : Tree} (h : Made t) (path value : String) : Made (t.set path value)
  | darken {t : Tree} (h : Made t) : Made t.darken
  | merge {t patch : Tree} (h : Made t) (hPatch : Made patch) : Made (t.merge patch)

/-- **All their keys are plain.** -/
theorem Made.hasPlainKeys (h : Made t) : t.HasPlainKeys := by
  induction h with
  | empty => exact hasPlainKeys_empty
  | light => exact hasPlainKeys_light
  | set h path value ih => exact ih.set path value
  | darken h ih => exact ih.darken
  | merge h hPatch ih ihPatch => exact ih.merge ihPatch

/-! ### What plain keys give -/

theorem HasPlainKeys.paths_eq (h : t.HasPlainKeys) :
    t.tokens.map Prod.fst = (t.asNode.listing.map Prod.fst).map (Text.glue '.') := by
  rw [tokens, Node.leaves_eq, List.map_map, List.map_map]
  exact List.map_congr_left fun e he => (h.path_of_listed he).1

/-- **No path is listed twice.** -/
theorem HasPlainKeys.nodup_paths (h : t.HasPlainKeys) : (t.tokens.map Prod.fst).Nodup := by
  rw [h.paths_eq]
  refine (Node.nodup_listing _ t.ordered).map_on fun keys hKeys keys' hKeys' hGlue => ?_
  obtain ⟨⟨_, token⟩, hListed, rfl⟩ := List.mem_map.mp hKeys
  obtain ⟨⟨_, token'⟩, hListed', rfl⟩ := List.mem_map.mp hKeys'
  have hCut := congrArg (Text.cut '.') hGlue
  rwa [(h.path_of_listed hListed).2, (h.path_of_listed hListed').2] at hCut

/-- A path without reserved keys is listed exactly if a token is found there. -/
theorem HasPlainKeys.mem_tokens_iff_token? (h : t.HasPlainKeys) {path : String} {token : Token} :
    (path, token) ∈ t.tokens ↔
      t.token? path = some token ∧ ∀ key ∈ Text.cut '.' path, isReserved key = false := by
  rw [h.mem_tokens_iff, mem_listing_iff, token?_eq]

/-! ### The statement -/

/-- **Listing and looking up agree.** A tree that is made without documents lists no path twice, and
a token under a path exactly if it is found there and no key of the path begins with `$`. -/
theorem listing_agrees_with_lookup (h : Made t) :
    (t.tokens.map Prod.fst).Nodup ∧ ∀ path token, (path, token) ∈ t.tokens ↔
      t.token? path = some token ∧ ∀ key ∈ Text.cut '.' path, key.toList.head? ≠ some '$' := by
  refine ⟨h.hasPlainKeys.nodup_paths, fun path token => ?_⟩
  rw [h.hasPlainKeys.mem_tokens_iff_token?]
  refine and_congr_right fun _ => forall₂_congr fun key _ => ?_
  rw [isReserved, beq_eq_false_iff_ne]

/-- The built-in tree with an accent under a reserved key, made dark, and with a gap of the brand merged
into it. -/
def branded : Tree :=
  (light.set "color.$accent" "#ff8800").darken.merge (empty.set "brand.gap" "\x7bgeometry.spacing.4\x7d")

/-- The accent of this tree is found but not listed, and the gap is both. -/
theorem branded_lists_gap : Made branded ∧ (branded.token? "color.$accent").isSome = true ∧
    (∀ token, ("color.$accent", token) ∉ branded.tokens) ∧
    ("brand.gap", ⟨"\x7bgeometry.spacing.4\x7d", .dimension, none⟩) ∈ branded.tokens := by
  have hMade : Made branded := ((Made.light.set _ _).darken).merge (Made.empty.set _ _)
  obtain ⟨-, hIff⟩ := listing_agrees_with_lookup hMade
  refine ⟨hMade, by decide +kernel, fun token hListed => ?_, (hIff _ _).mpr ⟨?_, ?_⟩⟩
  · exact ((hIff _ _).mp hListed).2 "$accent" (by decide +kernel) (by decide)
  · decide +kernel
  · decide +kernel

end DesignSystem.Tree
