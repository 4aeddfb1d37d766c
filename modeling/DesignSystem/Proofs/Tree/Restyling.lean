import DesignSystem.Proofs.Tree.Edits
import DesignSystem.Proofs.Tree.Variables
/-!
# What an edit does to the style variables

Tokens may share a variable, and then it shows the one that flattening comes to last. Since tokens are
listed in the lexicographic order of their keys (`Node.sorted_listing`), this is the one whose keys are
greatest: `ShowsIn` says so without a word on how a tree is gone through, and
`get?_flatten_eq_some_iff` that it is what variables show. So a variable depends on nothing but the
tokens that have its name (`get?_flatten_congr`).

An edit changes a token at one path and no other (`listed_set_iff`). So it changes no variable but the
one that is named after this path, and takes none away; and that one shows the edit unless the edit is
refused or the token is hidden, under a reserved key or behind a later token of the same name
(`edit_touches_one_variable`).
-/

namespace DesignSystem.Tree

variable {s t : Tree} {path value name text : String} {keys keys' : List String}
  {token token' : Token}

/-! ### The token that a variable shows -/

/-- The variable shows the token: among the tokens of that name it is the one whose keys are
greatest. -/
structure ShowsIn (t : Tree) (name : String) (keys : List String) (token : Token) : Prop where
  listed : (keys, token) ∈ t.asNode.listing
  named : variableOf keys = name
  last : ∀ e ∈ t.asNode.listing, variableOf e.1 = name → ¬ keys < e.1

/-- A variable shows one token only. -/
theorem ShowsIn.unique (h : t.ShowsIn name keys token) (h' : t.ShowsIn name keys' token') :
    keys = keys' ∧ token = token' := by
  have hNotLess : ¬ keys < keys' := h.last _ h'.listed h'.named
  have hNotMore : ¬ keys' < keys := h'.last _ h.listed h.named
  have hKeys : keys = keys' := List.le_antisymm hNotMore hNotLess
  subst hKeys
  have hToken := (mem_listing_iff.mp h.listed).1
  rw [(mem_listing_iff.mp h'.listed).1] at hToken
  exact ⟨rfl, (Option.some.inj hToken).symm⟩

/-- The last of the tokens of a name is the one whose keys are greatest. -/
theorem showsIn_of_find? {e : List String × Token}
    (h : t.asNode.listing.reverse.find? (fun e => variableOf e.1 == name) = some e) :
    t.ShowsIn name e.1 e.2 := by
  obtain ⟨hName, later, earlier, hSplit, hLater⟩ := List.find?_eq_some_iff_append.mp h
  have hListing : t.asNode.listing = earlier.reverse ++ e :: later.reverse := by
    rw [← List.reverse_reverse t.asNode.listing, hSplit, List.reverse_append, List.reverse_cons,
      List.append_assoc, List.singleton_append]
  have hSorted := Node.sorted_listing t.asNode t.ordered
  rw [hListing] at hSorted
  refine ⟨?_, eq_of_beq hName, fun d hd hSame hLess => ?_⟩
  · rw [hListing]
    exact List.mem_append_right _ List.mem_cons_self
  · rw [hListing] at hd
    rcases List.mem_append.mp hd with hEarlier | hRest
    · have hBefore := (List.pairwise_append.mp hSorted).2.2 d hEarlier e List.mem_cons_self
      exact List.lt_asymm hBefore hLess
    · rcases List.mem_cons.mp hRest with rfl | hMem
      · exact List.lt_irrefl _ hLess
      · have hOther := hLater d (List.mem_reverse.mp hMem)
        rw [beq_iff_eq.mpr hSame] at hOther
        cases hOther

/-- **What a variable shows.** -/
theorem get?_flatten_eq_some_iff : Keyed.get? t.flatten name = some text ↔
    ∃ keys token, t.ShowsIn name keys token ∧ token.style = text := by
  rw [get?_flatten_last, Option.map_eq_some_iff]
  constructor
  · rintro ⟨e, hFind, hStyle⟩
    exact ⟨e.1, e.2, showsIn_of_find? hFind, hStyle⟩
  · rintro ⟨keys, token, hShows, hStyle⟩
    cases hFind : t.asNode.listing.reverse.find? (fun e => variableOf e.1 == name) with
    | none =>
      have hNone := List.find?_eq_none.mp hFind _ (List.mem_reverse.mpr hShows.listed)
      exact absurd (beq_iff_eq.mpr hShows.named) hNone
    | some e =>
      obtain ⟨-, hToken⟩ := (showsIn_of_find? hFind).unique hShows
      exact ⟨e, rfl, hToken ▸ hStyle⟩

/-- Variables that show the same tokens hold the same. -/
theorem get?_flatten_congr (h : ∀ keys token, s.ShowsIn name keys token ↔ t.ShowsIn name keys token) :
    Keyed.get? s.flatten name = Keyed.get? t.flatten name := by
  refine Option.ext fun text => ?_
  rw [get?_flatten_eq_some_iff, get?_flatten_eq_some_iff]
  simp only [h]

/-- **A variable depends on nothing but the tokens that have its name.** -/
theorem showsIn_congr (h : ∀ keys token, variableOf keys = name →
      ((keys, token) ∈ s.asNode.listing ↔ (keys, token) ∈ t.asNode.listing))
    (keys : List String) (token : Token) :
    s.ShowsIn name keys token ↔ t.ShowsIn name keys token := by
  constructor
  · rintro ⟨hListed, hName, hLast⟩
    exact ⟨(h keys token hName).mp hListed, hName,
      fun e he hSame => hLast e ((h e.1 e.2 hSame).mpr he) hSame⟩
  · rintro ⟨hListed, hName, hLast⟩
    exact ⟨(h keys token hName).mpr hListed, hName,
      fun e he hSame => hLast e ((h e.1 e.2 hSame).mp he) hSame⟩

/-! ### After an edit -/

/-- An edit changes the listing at its path only. -/
theorem listed_set_iff (t : Tree) (h : keys ≠ Text.cut '.' path) (value : String) :
    (keys, token) ∈ (t.set path value).asNode.listing ↔ (keys, token) ∈ t.asNode.listing := by
  rw [mem_listing_iff, mem_listing_iff, tokenAt?_set_of_ne t h]

/-- **No variable disappears.** -/
theorem has_flatten_set (h : Keyed.has t.flatten name = true) (path value : String) :
    Keyed.has (t.set path value).flatten name = true := by
  obtain ⟨⟨keys, token⟩, hListed, hName⟩ := has_flatten_iff.mp h
  obtain ⟨hToken, hReserved⟩ := mem_listing_iff.mp hListed
  have hThere : t.tokenAt? keys ≠ none := by
    rw [hToken]
    exact nofun
  obtain ⟨token', hToken'⟩ :=
    Option.ne_none_iff_exists'.mp (exists_tokenAt_set hThere path value)
  exact has_flatten_iff.mpr ⟨_, mem_listing_iff.mpr ⟨hToken', hReserved⟩, hName⟩

/-- Nothing hides the token at the path from the variables: no key is reserved, and no token of the
same name has greater keys. -/
def Unhidden (t : Tree) (path : String) : Prop :=
  (∀ key ∈ Text.cut '.' path, isReserved key = false) ∧
    ∀ e ∈ t.asNode.listing, variableOf e.1 = variableOf (Text.cut '.' path) →
      ¬ Text.cut '.' path < e.1

/-- An edit that lands shows in its variable, if nothing hides it. -/
theorem showsIn_set (hLands : ¬ t.Blocks path) (h : t.Unhidden path) (value : String) :
    (t.set path value).ShowsIn (variableOf (Text.cut '.' path)) (Text.cut '.' path)
      (.edited (Text.cut '.' path) value (t.token? path)) := by
  obtain ⟨hReserved, hLast⟩ := h
  refine ⟨listed_of_token? (token?_set_self hLands value) hReserved, rfl, fun e he hSame hLess => ?_⟩
  have hNe : e.1 ≠ Text.cut '.' path := (Std.ne_of_lt hLess).symm
  exact hLast e ((listed_set_iff t hNe value).mp he) hSame hLess

/-- Where a token of the same name comes later, it makes no difference to a variable what is listed
under the keys that are hidden by it. -/
theorem ShowsIn.of_hidden {hidden : List String} {later : List String × Token}
    (hSame : ∀ keys, keys ≠ hidden → ∀ token,
      ((keys, token) ∈ s.asNode.listing ↔ (keys, token) ∈ t.asNode.listing))
    (hLater : later ∈ s.asNode.listing) (hName : variableOf later.1 = name)
    (hLess : hidden < later.1) (h : s.ShowsIn name keys token) : t.ShowsIn name keys token := by
  have hNotLess : ¬ keys < later.1 := h.last later hLater hName
  have hNe : keys ≠ hidden := by
    rintro rfl
    exact hNotLess hLess
  refine ⟨(hSame keys hNe token).mp h.listed, h.named, fun e he hNamed hMore => ?_⟩
  by_cases hHidden : e.1 = hidden
  · exact hNotLess (List.lt_trans hMore (hHidden ▸ hLess))
  · exact h.last e ((hSame e.1 hHidden e.2).mpr he) hNamed hMore

/-- An edit that something hides does not show in its variable. -/
theorem showsIn_set_iff_of_hidden (h : ¬ t.Unhidden path) (value : String) (keys : List String)
    (token : Token) : (t.set path value).ShowsIn (variableOf (Text.cut '.' path)) keys token ↔
      t.ShowsIn (variableOf (Text.cut '.' path)) keys token := by
  have hSame : ∀ keys, keys ≠ Text.cut '.' path → ∀ token,
      ((keys, token) ∈ (t.set path value).asNode.listing ↔ (keys, token) ∈ t.asNode.listing) :=
    fun _ hNe _ => listed_set_iff t hNe value
  by_cases hReserved : ∀ key ∈ Text.cut '.' path, isReserved key = false
  · have hLater : ∃ e ∈ t.asNode.listing,
        variableOf e.1 = variableOf (Text.cut '.' path) ∧ Text.cut '.' path < e.1 := by
      by_contra hNone
      exact h ⟨hReserved, fun e he hName hLess => hNone ⟨e, he, hName, hLess⟩⟩
    obtain ⟨later, hListed, hName, hLess⟩ := hLater
    have hNe : later.1 ≠ Text.cut '.' path := (Std.ne_of_lt hLess).symm
    have hListed' := (hSame later.1 hNe later.2).mpr hListed
    exact ⟨.of_hidden hSame hListed' hName hLess,
      .of_hidden (fun keys hNe token => (hSame keys hNe token).symm) hListed hName hLess⟩
  · -- under a reserved key nothing is listed, before or after
    have hUnlisted : ∀ (u : Tree) token, (Text.cut '.' path, token) ∉ u.asNode.listing :=
      fun _ _ hListed => hReserved (mem_listing_iff.mp hListed).2
    refine showsIn_congr (fun keys token _ => ?_) keys token
    by_cases hPath : keys = Text.cut '.' path
    · subst hPath
      exact iff_of_false (hUnlisted _ token) (hUnlisted t token)
    · exact hSame keys hPath token

/-! ### The statement -/

/-- **An edit touches one style variable**, the one named after its path: the keys with dashes between
them, without that of a representative below the root. All others are there as before and show the
same, and none disappears. The one shows the new text, as it is or as a reference, if the edit lands
and nothing hides it, and otherwise the same as before. -/
theorem edit_touches_one_variable (t : Tree) (path value : String) :
    let own := variablePrefix ++ Text.glue '-' (collapse (Text.cut '.' path))
    (∀ name, name ≠ own →
        Keyed.get? (t.set path value).flatten name = Keyed.get? t.flatten name) ∧
      (∀ name, Keyed.has t.flatten name = true →
        Keyed.has (t.set path value).flatten name = true) ∧
      (¬ t.Blocks path → t.Unhidden path →
        Keyed.get? (t.set path value).flatten own = some (Token.Value.parse value).style) ∧
      (t.Blocks path ∨ ¬ t.Unhidden path →
        Keyed.get? (t.set path value).flatten own = Keyed.get? t.flatten own) := by
  intro own
  by_cases hBlocks : t.Blocks path
  · rw [set_of_blocks hBlocks]
    exact ⟨fun _ _ => rfl, fun _ h => h, fun hLands => absurd hBlocks hLands, fun _ => rfl⟩
  · have hOwn : variableOf (Text.cut '.' path) = own :=
      variableOf_eq (Text.cut_ne_nil '.' path) fun key hKey hEmpty =>
        hBlocks (.inl (hEmpty ▸ hKey))
    refine ⟨fun name hName => ?_, fun name h => has_flatten_set h path value, fun _ hShown => ?_,
      fun hHidden => ?_⟩
    · refine get?_flatten_congr (showsIn_congr fun keys token hKeys => ?_)
      have hPath : keys ≠ Text.cut '.' path := by
        rintro rfl
        exact hName (hKeys.symm.trans hOwn)
      exact listed_set_iff t hPath value
    · rw [← hOwn]
      refine get?_flatten_eq_some_iff.mpr ⟨_, _, showsIn_set hBlocks hShown value, ?_⟩
      rw [Token.style, parsed_edited]
    · rw [← hOwn]
      exact get?_flatten_congr
        (showsIn_set_iff_of_hidden (hHidden.resolve_left hBlocks) value)

/-- Here the edit is hidden: the token under `a-b` comes after the one under `a` and `b`. -/
example : ((empty.set "a-b" "1").set "a.b" "2").flatten = [("--ds-a-b", "1")] := by
  decide +kernel

end DesignSystem.Tree
