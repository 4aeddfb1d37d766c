import DesignSystem.Proofs.Json.Value
import DesignSystem.Proofs.Tree.Darkening
import DesignSystem.Proofs.Tree.Storable
/-!
# Which trees survive being saved and loaded

A tree is saved as the value of its document (`Tree.toValue`) and loaded from a value again
(`Tree.ofValue`). The value tells the nodes apart by their form alone, so a node comes back unless it
has the form of another kind: a group below the root with a member `value`, or metadata that is an
object.

Only edits can bring about the first. No loaded tree has such a group, since an object with a `value`
is loaded as a token (`lacksInnerValue_of_loaded`), and of the edits only those whose path leads
through a key `value` below the root can make one (`LacksInnerValue.set`). The second cannot come
about at all. Metadata comes from values, and neither edits nor merging nor the dark pass make any,
so what holds of the metadata of loaded trees holds of all trees that are made from them
(`Obtained.plain`). Of these trees, exactly those survive in which no group below the root has a
member `value` (`reload_eq_iff`).
-/

namespace DesignSystem

/-- A document that metadata can hold: it is no object, and the objects in it are in key order. -/
def Json.IsPlain (v : Json) : Prop :=
  v.isObject = false ∧ v.Ordered

namespace Tree

variable {t patch : Tree} {p : Node → Prop} {q : Json → Prop}

namespace Node

/-! ### All nodes in a node -/

/-- **Induction on nodes**: what holds of a node whenever it holds of all members of it holds of every
node. -/
@[elab_as_elim]
theorem induction {motive : Node → Prop} (token : ∀ t, motive (.token t))
    (group : ∀ members : List (String × Node),
      (∀ e ∈ members, motive e.2) → motive (.group members))
    (metadata : ∀ v, motive (.metadata v)) (n : Node) : motive n := by
  refine @Node.rec motive (fun members => ∀ e ∈ members, motive e.2) (fun e => motive e.2)
    token group metadata nofun ?_ ?_ n
  · intro e rest hHead hTail
    exact List.forall_mem_cons.mpr ⟨hHead, hTail⟩
  · intro key m hMember
    exact hMember

/-- `p` holds of the node and of all nodes in it. -/
def Holds (p : Node → Prop) (n : Node) : Prop :=
  ∀ keys m, n.at? keys = some m → p m

/-- There are no other nodes in a token or in metadata. -/
theorem holds_iff_of_isEnd {n : Node} (hEnd : n.IsEnd) : n.Holds p ↔ p n := by
  constructor
  · intro h
    exact h [] n rfl
  · intro h keys m hAt
    cases keys with
    | nil =>
      cases hAt
      exact h
    | cons key rest =>
      cases n with
      | token _ | metadata _ => cases hAt
      | group members => cases hEnd

/-- What holds of all nodes in a group holds of the group and of all nodes in its members. -/
theorem holds_group_iff {members : Keyed Node} (hOrdered : Keyed.Ordered members) :
    (Node.group members).Holds p ↔ p (.group members) ∧ ∀ e ∈ members, e.2.Holds p := by
  constructor
  · intro h
    refine ⟨h [] _ rfl, fun e he keys m hAt => h (e.1 :: keys) m ?_⟩
    rw [at?, Keyed.get?_of_mem hOrdered he, Option.bind_some, hAt]
  · rintro ⟨hGroup, hMembers⟩ keys m hAt
    cases keys with
    | nil =>
      cases hAt
      exact hGroup
    | cons key rest =>
      obtain ⟨n, hGet, hRest⟩ := Option.bind_eq_some_iff.mp hAt
      exact hMembers _ (Keyed.mem_of_get? hGet) rest m hRest

/-- A group has no member under the key that makes an object a token. -/
def LacksValue : Node → Prop
  | .group members => Keyed.has members "value" = false
  | .token _ | .metadata _ => True

/-- Metadata satisfies `q`. -/
def MetadataIs (q : Json → Prop) : Node → Prop
  | .metadata v => q v
  | .token _ | .group _ => True

/-! ### Nodes that are saved and loaded -/

/-- What comes back of a node that is saved and loaded. -/
def reload (path : List String) (n : Node) : Node :=
  ofJson path n.toJson.inKeyOrder

theorem membersToJson_eq_map (members : List (String × Node)) :
    membersToJson members = members.map fun e => (e.1, e.2.toJson) := by
  induction members with
  | nil => rfl
  | cons e rest ih => rw [membersToJson, ih, List.map_cons]

theorem membersOfEntries_eq_map (path : List String) (entries : List (String × Json)) :
    membersOfEntries path entries = entries.map fun e => (e.1, ofJson (path ++ [e.1]) e.2) := by
  induction entries with
  | nil => rfl
  | cons e rest ih => rw [membersOfEntries, ih, List.map_cons]

/-- The entries of the value that a group is saved as. -/
def savedEntries (members : List (String × Node)) : List (String × Json) :=
  members.map fun e => (e.1, e.2.toJson.inKeyOrder)

theorem keys_savedEntries (members : List (String × Node)) :
    (savedEntries members).map Prod.fst = members.map Prod.fst := by
  rw [savedEntries, List.map_map]
  rfl

theorem inKeyOrder_group {members : List (String × Node)} (hOrdered : Keyed.Ordered members) :
    (Node.group members).toJson.inKeyOrder = .object (savedEntries members) := by
  have hEntries : Json.entriesInKeyOrder (membersToJson members) = savedEntries members := by
    rw [Json.entriesInKeyOrder_eq_map, membersToJson_eq_map, List.map_map]
    rfl
  rw [toJson, Json.inKeyOrder, hEntries, Keyed.ofList_of_keys (keys_savedEntries members) hOrdered]

/-- The members of a group that is saved come back one by one. -/
theorem membersOfEntries_savedEntries (path : List String) (members : List (String × Node)) :
    membersOfEntries path (savedEntries members) =
      members.map fun e => (e.1, e.2.reload (path ++ [e.1])) := by
  rw [membersOfEntries_eq_map, savedEntries, List.map_map]
  rfl

theorem ofList_membersOfEntries_savedEntries {members : List (String × Node)}
    (hOrdered : Keyed.Ordered members) (path : List String) :
    Keyed.ofList (membersOfEntries path (savedEntries members)) =
      members.map fun e => (e.1, e.2.reload (path ++ [e.1])) := by
  have hKeys := (keys_membersOfEntries path _).trans (keys_savedEntries members)
  rw [Keyed.ofList_of_keys hKeys hOrdered, membersOfEntries_savedEntries]

theorem inKeyOrder_token (token : Token) :
    (Node.token token).toJson.inKeyOrder = .object (Keyed.ofList (tokenEntries token)) := by
  have hTexts : Json.entriesInKeyOrder (tokenEntries token) = tokenEntries token := by
    unfold tokenEntries
    split <;> rfl
  rw [← hTexts]
  rfl

theorem has_value_tokenEntries (token : Token) :
    Keyed.has (Keyed.ofList (tokenEntries token)) "value" = true :=
  (Keyed.has_ofList _ _).mpr ⟨_, List.mem_cons_self, rfl⟩

theorem reload_token (path : List String) (token : Token) :
    (Node.token token).reload path = .token token := by
  rw [reload, inKeyOrder_token, ofJson, if_pos (has_value_tokenEntries token),
    tokenOfEntries_tokenEntries]

theorem reload_metadata {v : Json} (h : v.IsPlain) (path : List String) :
    (Node.metadata v).reload path = .metadata v := by
  obtain ⟨hObject, hOrdered⟩ := h
  rw [reload, toJson, Json.inKeyOrder_of_ordered hOrdered, ofJson_of_not_object hObject]

/-- A group comes back exactly if it cannot be taken for a token and all members come back. -/
theorem reload_group_iff {members : List (String × Node)} (hOrdered : Keyed.Ordered members)
    (path : List String) : (Node.group members).reload path = .group members ↔
      Keyed.has members "value" = false ∧
        ∀ e ∈ members, e.2.reload (path ++ [e.1]) = e.2 := by
  have hValue : Keyed.has (savedEntries members) "value" = Keyed.has members "value" :=
    Keyed.has_eq_of_keys (keys_savedEntries members) "value"
  rw [reload, inKeyOrder_group hOrdered, ofJson, hValue]
  cases Keyed.has members "value" with
  | true => simp
  | false =>
    rw [if_neg Bool.false_ne_true, ofList_membersOfEntries_savedEntries hOrdered,
      Node.group.injEq, Keyed.map_values_eq_self_iff]
    simp

/-- **A node comes back exactly if no group in it can be taken for a token.** -/
theorem reload_eq_iff {n : Node} (hOrdered : n.Ordered) (hPlain : n.Holds (MetadataIs Json.IsPlain))
    (path : List String) : n.reload path = n ↔ n.Holds LacksValue := by
  induction n using Node.induction generalizing path with
  | token token =>
    rw [holds_iff_of_isEnd (n := .token token) trivial]
    exact iff_of_true (reload_token path token) trivial
  | metadata v =>
    rw [holds_iff_of_isEnd (n := .metadata v) trivial] at hPlain ⊢
    exact iff_of_true (reload_metadata hPlain path) trivial
  | group members ih =>
    obtain ⟨hKeys, hMembers⟩ := hOrdered
    have hInner := ((holds_group_iff hKeys).mp hPlain).2
    rw [reload_group_iff hKeys, holds_group_iff hKeys]
    refine and_congr_right' (forall₂_congr fun e he => ?_)
    exact ih e he (membersOrdered_iff.mp hMembers e he) (hInner e he) (path ++ [e.1])

/-! ### Nodes that are loaded -/

theorem mem_membersOfEntries {path : List String} {entries : List (String × Json)}
    {e : String × Node} (h : e ∈ membersOfEntries path entries) :
    ∃ d ∈ entries, e = (d.1, ofJson (path ++ [d.1]) d.2) := by
  rw [membersOfEntries_eq_map] at h
  obtain ⟨d, hd, hEq⟩ := List.mem_map.mp h
  exact ⟨d, hd, hEq.symm⟩

/-- **No group in a loaded node can be taken for a token**, and all metadata is plain. -/
theorem holds_ofJson {j : Json} (hOrdered : j.Ordered) (path : List String) :
    (ofJson path j).Holds fun n => n.LacksValue ∧ n.MetadataIs Json.IsPlain := by
  induction j using Json.induction generalizing path with
  | null | bool b | number n | string s | array items =>
    rw [ofJson_of_not_object rfl, holds_iff_of_isEnd (n := .metadata _) trivial]
    exact ⟨trivial, rfl, hOrdered⟩
  | object entries ih =>
    rw [ofJson]
    split
    · exact (holds_iff_of_isEnd (n := .token _) trivial).mpr ⟨trivial, trivial⟩
    · rename_i hValue
      have hKeys := keys_membersOfEntries path entries
      have hLacks : Keyed.has (membersOfEntries path entries) "value" = false := by
        rw [Keyed.has_eq_of_keys hKeys]
        exact Bool.eq_false_iff.mpr hValue
      rw [Keyed.ofList_of_keys hKeys hOrdered.1,
        holds_group_iff (Keyed.ordered_of_keys hKeys hOrdered.1)]
      refine ⟨⟨hLacks, trivial⟩, fun e he => ?_⟩
      obtain ⟨d, hd, rfl⟩ := mem_membersOfEntries he
      exact ih d hd (Json.entriesOrdered_iff.mp hOrdered.2 d hd) (path ++ [d.1])

end Node

/-! ### Trees that are saved and loaded -/

/-- The value that a tree is saved as. -/
def toValue (t : Tree) : Json.Value :=
  t.toJson.toValue

/-- The tree that is loaded from a value, which must be an object. -/
def ofValue (v : Json.Value) : Except LoadError Tree :=
  ofJson v.doc

/-- No group below the root has a member under the key `value`. The root may have one. -/
def LacksInnerValue (t : Tree) : Prop :=
  ∀ keys members, keys ≠ [] → t.asNode.at? keys = some (.group members) →
    Keyed.has members "value" = false

theorem lacksInnerValue_iff :
    t.LacksInnerValue ↔ ∀ e ∈ t.members, e.2.Holds Node.LacksValue := by
  constructor
  · intro h e he keys m hAt
    cases m with
    | token _ | metadata _ => trivial
    | group members =>
      refine h (e.1 :: keys) members (List.cons_ne_nil _ _) ?_
      rw [asNode, Node.at?, Keyed.get?_of_mem t.ordered.1 he, Option.bind_some, hAt]
  · intro h keys members hNe hAt
    obtain ⟨key, rest, rfl⟩ := List.exists_cons_of_ne_nil hNe
    obtain ⟨n, hGet, hRest⟩ := Option.bind_eq_some_iff.mp hAt
    exact h _ (Keyed.mem_of_get? hGet) rest _ hRest

/-- The root comes back as a group in any case. -/
theorem ofValue_toValue_iff :
    ofValue t.toValue = .ok t ↔ ∀ e ∈ t.members, e.2.reload [e.1] = e.2 := by
  have hDoc : t.toValue.doc = .object (Node.savedEntries t.members) :=
    Node.inKeyOrder_group t.ordered.1
  rw [ofValue, hDoc, ofJson, Except.ok.injEq, Tree.ext_iff]
  show Keyed.ofList (Node.membersOfEntries [] (Node.savedEntries t.members)) = t.members ↔ _
  rw [Node.ofList_membersOfEntries_savedEntries t.ordered.1, Keyed.map_values_eq_self_iff]
  rfl

/-- **A tree whose metadata is plain comes back exactly if no group below the root has a member
`value`.** -/
theorem reload_eq_iff (hPlain : t.asNode.Holds (Node.MetadataIs Json.IsPlain)) :
    ofValue t.toValue = .ok t ↔ t.LacksInnerValue := by
  have hInner := ((Node.holds_group_iff t.ordered.1).mp hPlain).2
  rw [ofValue_toValue_iff, lacksInnerValue_iff]
  refine forall₂_congr fun e he => ?_
  exact Node.reload_eq_iff (Node.membersOrdered_iff.mp t.ordered.2 e he) (hInner e he) [e.1]

/-- Every object is loaded. -/
theorem exists_loaded {v : Json.Value} (hObject : v.doc.isObject = true) :
    ∃ t, ofValue v = .ok t := by
  obtain ⟨doc, hOrdered⟩ := v
  cases doc with
  | null | bool b | number n | string s | array items => cases hObject
  | object entries => exact ⟨_, rfl⟩

/-- The members of a loaded tree are loaded nodes. -/
theorem holds_of_loaded {v : Json.Value} (h : ofValue v = .ok t) :
    ∀ e ∈ t.members, e.2.Holds fun n => n.LacksValue ∧ n.MetadataIs Json.IsPlain := by
  obtain ⟨doc, hOrdered⟩ := v
  cases doc with
  | null | bool b | number n | string s | array items => cases h
  | object entries =>
    cases h
    intro e he
    obtain ⟨d, hd, rfl⟩ := Node.mem_membersOfEntries (Keyed.mem_ofList he)
    exact Node.holds_ofJson (Json.entriesOrdered_iff.mp hOrdered.2 d hd) [d.1]

theorem lacksInnerValue_of_loaded {v : Json.Value} (h : ofValue v = .ok t) :
    t.LacksInnerValue := by
  rw [lacksInnerValue_iff]
  intro e he keys m hAt
  exact (holds_of_loaded h e he keys m hAt).1

theorem plain_of_loaded {v : Json.Value} (h : ofValue v = .ok t) :
    t.asNode.Holds (Node.MetadataIs Json.IsPlain) := by
  rw [asNode, Node.holds_group_iff t.ordered.1]
  refine ⟨trivial, fun e he keys m hAt => ?_⟩
  exact (holds_of_loaded h e he keys m hAt).2

/-! ### Trees that are edited -/

/-- What is found after an edit was there before, or is a token or a group on the path. -/
theorem Place.at?_edit {full path : List String} {value : String} {place : Place}
    {other : List String} {m : Node} (h : (edit full value path place).at? other = some m) :
    place.at? other = some m ∨
      other <+: path ∧ ((∃ token, m = .token token) ∨ ∃ members, m = .group members) := by
  unfold edit at h
  cases hEdit : edit? full value path place with
  | none =>
    rw [hEdit, Option.none_or] at h
    exact .inl h
  | some n =>
    rw [hEdit, Option.some_or] at h
    by_cases hPath : other = path
    · subst hPath
      rw [at?_edit? hEdit] at h
      exact .inr ⟨List.prefix_rfl, .inl ⟨_, (Option.some.inj h).symm⟩⟩
    · rcases at?_edit?_of_ne hEdit hPath with hSame | ⟨hPrefix, -, members, hMade⟩
      · exact .inl (hSame ▸ h)
      · rw [hMade] at h
        exact .inr ⟨hPrefix, .inr ⟨members, (Option.some.inj h).symm⟩⟩

/-- What is found below the root after merging was there in one of the two trees. -/
theorem at?_merge {keys : List String} {m : Node} (hNe : keys ≠ [])
    (h : (t.merge patch).asNode.at? keys = some m) :
    t.asNode.at? keys = some m ∨ patch.asNode.at? keys = some m := by
  obtain ⟨key, rest, rfl⟩ := List.exists_cons_of_ne_nil hNe
  have hPlace : ((t.merge patch).place key).at? rest = some m := h
  rw [place_merge] at hPlace
  cases hNew : patch.place key with
  | none =>
    rw [hNew, Option.none_or] at hPlace
    exact .inl hPlace
  | some n =>
    rw [hNew, Option.some_or, ← hNew] at hPlace
    exact .inr hPlace

/-- **An edit makes no metadata.** -/
theorem metadata_set (h : t.asNode.Holds (Node.MetadataIs q)) (path value : String) :
    (t.set path value).asNode.Holds (Node.MetadataIs q) := by
  by_cases hKeys : "" ∈ Text.cut '.' path
  · rwa [set_of_empty_key hKeys]
  · intro keys m hAt
    have hPlace : Place.at? (some (t.set path value).asNode) keys = some m := hAt
    rw [asNode_set hKeys] at hPlace
    rcases Place.at?_edit hPlace with hOld | ⟨-, ⟨token, rfl⟩ | ⟨members, rfl⟩⟩
    · exact h keys m hOld
    · trivial
    · trivial

theorem metadata_setAll (h : t.asNode.Holds (Node.MetadataIs q))
    (edits : List (String × String)) : (t.setAll edits).asNode.Holds (Node.MetadataIs q) := by
  induction edits generalizing t with
  | nil => exact h
  | cons e edits ih => exact ih (metadata_set h e.1 e.2)

/-- Merging takes metadata from either tree. -/
theorem metadata_merge (h : t.asNode.Holds (Node.MetadataIs q))
    (hPatch : patch.asNode.Holds (Node.MetadataIs q)) :
    (t.merge patch).asNode.Holds (Node.MetadataIs q) := by
  intro keys m hAt
  cases keys with
  | nil =>
    cases hAt
    trivial
  | cons key rest =>
    rcases at?_merge (List.cons_ne_nil key rest) hAt with hOld | hNew
    · exact h (key :: rest) m hOld
    · exact hPatch (key :: rest) m hNew

/-- The trees that are made from loaded ones by edits, merging and the dark pass. -/
inductive Obtained : Tree → Prop
  | loaded {v : Json.Value} {t : Tree} (h : ofValue v = .ok t) : Obtained t
  | set {t : Tree} (h : Obtained t) (path value : String) : Obtained (t.set path value)
  | merge {t patch : Tree} (h : Obtained t) (hPatch : Obtained patch) : Obtained (t.merge patch)
  | darken {t : Tree} (h : Obtained t) : Obtained t.darken

/-- All their metadata is plain. -/
theorem Obtained.plain (h : Obtained t) : t.asNode.Holds (Node.MetadataIs Json.IsPlain) := by
  induction h with
  | loaded h => exact plain_of_loaded h
  | set h path value ih => exact metadata_set ih path value
  | merge h hPatch ih ihPatch => exact metadata_merge ih ihPatch
  | darken h ih => exact metadata_setAll ih _

/-! ### What edits do to the groups -/

theorem lacksInnerValue_iff_at? :
    t.LacksInnerValue ↔ ∀ keys, keys ≠ [] → t.asNode.at? (keys ++ ["value"]) = none := by
  have hMember : ∀ members, (Node.group members).at? ["value"] = none ↔
      Keyed.has members "value" = false := by
    intro members
    rw [Node.at?, Keyed.has]
    cases Keyed.get? members "value" with
    | none => simp
    | some n => simp [Node.at?]
  constructor
  · intro h keys hNe
    rw [Node.at?_append]
    cases hAt : t.asNode.at? keys with
    | none => rfl
    | some n =>
      cases n with
      | token _ | metadata _ => rfl
      | group members => exact (hMember members).mpr (h keys members hNe hAt)
  · intro h keys members hNe hAt
    have hNone := h keys hNe
    rw [Node.at?_append, hAt, Option.bind_some] at hNone
    exact (hMember members).mp hNone

/-- **An edit does no harm unless its path leads through a key `value` below the root.** -/
theorem LacksInnerValue.set (h : t.LacksInnerValue) {path : String}
    (hPath : "value" ∉ (Text.cut '.' path).tail) (value : String) :
    (t.set path value).LacksInnerValue := by
  by_cases hKeys : "" ∈ Text.cut '.' path
  · rwa [set_of_empty_key hKeys]
  · rw [lacksInnerValue_iff_at?] at h ⊢
    intro keys hNe
    obtain ⟨first, rest, rfl⟩ := List.exists_cons_of_ne_nil hNe
    refine Option.eq_none_iff_forall_ne_some.mpr fun m hAt => ?_
    have hPlace : Place.at? (some (t.set path value).asNode) (first :: rest ++ ["value"]) =
      some m := hAt
    rw [asNode_set hKeys] at hPlace
    rcases Place.at?_edit hPlace with hOld | ⟨⟨more, hMore⟩, -⟩
    · have hAtOld : t.asNode.at? (first :: rest ++ ["value"]) = some m := hOld
      rw [h (first :: rest) hNe] at hAtOld
      cases hAtOld
    · refine hPath ?_
      rw [← hMore]
      simp

theorem LacksInnerValue.setAll (h : t.LacksInnerValue) {edits : List (String × String)}
    (hPaths : ∀ e ∈ edits, "value" ∉ (Text.cut '.' e.1).tail) :
    (t.setAll edits).LacksInnerValue := by
  induction edits generalizing t with
  | nil => exact h
  | cons e edits ih =>
    obtain ⟨hHead, hTail⟩ := List.forall_mem_cons.mp hPaths
    exact ih (h.set hHead e.2) hTail

/-- **The dark pass does no harm**, and neither does merging. -/
theorem LacksInnerValue.darken (h : t.LacksInnerValue) : t.darken.LacksInnerValue := by
  have hPaths : ∀ path ∈ darkPaths, "value" ∉ (Text.cut '.' path).tail := by decide
  exact h.setAll fun e he => hPaths e.1 (mem_darkPaths he)

theorem LacksInnerValue.merge (h : t.LacksInnerValue) (hPatch : patch.LacksInnerValue) :
    (t.merge patch).LacksInnerValue := by
  intro keys members hNe hAt
  rcases at?_merge hNe hAt with hOld | hNew
  · exact h keys members hNe hOld
  · exact hPatch keys members hNe hNew

/-! ### The statement -/

/-- **When a tree survives being saved and loaded.** A tree that is made from loaded ones by edits,
merging and the dark pass comes back exactly if no group below the root has a member `value`. Every
object is loaded as a tree without such a group, so what was loaded, and is saved and loaded again,
stays the same. -/
theorem survives_reload_iff_lacksInnerValue :
    (∀ t, Obtained t → (ofValue t.toValue = .ok t ↔ t.LacksInnerValue)) ∧
      ∀ v : Json.Value, v.doc.isObject = true →
        ∃ t, ofValue v = .ok t ∧ t.LacksInnerValue ∧ ofValue t.toValue = .ok t := by
  refine ⟨fun t h => reload_eq_iff h.plain, fun v hObject => ?_⟩
  obtain ⟨t, hLoaded⟩ := exists_loaded hObject
  have hLacks := lacksInnerValue_of_loaded hLoaded
  exact ⟨t, hLoaded, hLacks, (reload_eq_iff (plain_of_loaded hLoaded)).mpr hLacks⟩

/-- A tree with a note on a group. -/
def noted : Tree :=
  ⟨[("color", .group [("$note", .metadata (.array [.string "draft"])),
      ("text", .token ⟨"black", .color, none⟩)])],
    by decide, ⟨by decide, trivial, trivial, trivial⟩, trivial⟩

/-- A value of this tree that leaves the type of the token open. -/
def notedValue : Json.Value :=
  (Json.object [("color", .object [("text", .object [("value", .string "black")]),
    ("$note", .array [.string "draft"])])]).toValue

/-- The tree stays the same until an edit puts a `value` beside the note. -/
theorem noted_survives_until_edited : ofValue notedValue = .ok noted ∧
    ofValue noted.toValue = .ok noted ∧ Obtained (noted.set "color.value" "white") ∧
    ofValue (noted.set "color.value" "white").toValue ≠ .ok (noted.set "color.value" "white") := by
  have hLoaded : ofValue notedValue = .ok noted := by decide +kernel
  have hObtained : Obtained (noted.set "color.value" "white") :=
    .set (.loaded hLoaded) "color.value" "white"
  have hColor : (noted.set "color.value" "white").asNode.at? ["color"] = some (.group [
      ("$note", .metadata (.array [.string "draft"])), ("text", .token ⟨"black", .color, none⟩),
      ("value", .token ⟨"white", .color, none⟩)]) := by decide +kernel
  obtain ⟨hEdited, hKept⟩ := survives_reload_iff_lacksInnerValue
  obtain ⟨t, hSame, -, hBack⟩ := hKept notedValue rfl
  cases hLoaded.symm.trans hSame
  refine ⟨hLoaded, hBack, hObtained, fun hSame => ?_⟩
  have hLacks := (hEdited _ hObtained).mp hSame ["color"] _ (List.cons_ne_nil _ _) hColor
  exact absurd hLacks (by decide)

end Tree

end DesignSystem
