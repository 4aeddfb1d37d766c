import DesignSystem.Tree.Document
import DesignSystem.Proofs.Json.Readable
/-!
# Which trees are read back

A tree is stored as its document, which tells tokens, groups and metadata apart by their form alone.
Edits of a tree know nothing of that form. `Node.Storable` lists what they can get wrong:

* a group below the root has a member under the key `value`, and so the form of a token;
* metadata is an object, and so has the form of a group or a token, or it is not readable itself;
* there are more levels than the reader opens.

`reread_iff` says that a tree that is none of this is read back, and that any other one is not. The
members of a group are followed in their order, which the reader keeps: their keys are in order on
both sides, so that only what stands under a key can differ. `Storable.set` is the other side of the
list: an edit whose path avoids the key `value` and is not too long does no harm.
-/

namespace DesignSystem

namespace Json

/-- Whether a document is an object. -/
def isObject : Json → Bool
  | .object _ => true
  | _ => false

/-- Reading keeps objects objects and anything else something else. -/
theorem isObject_value {depth : Nat} {v v' : Json} (h : v.source.value depth = some v') :
    v'.isObject = v.isObject := by
  cases v with
  | null => cases h; rfl
  | bool b => cases h; rfl
  | number n =>
    obtain ⟨m, -, rfl⟩ := Option.map_eq_some_iff.mp h
    rfl
  | string s =>
    obtain ⟨t, -, rfl⟩ := Option.map_eq_some_iff.mp h
    rfl
  | array items =>
    cases depth with
    | zero => cases h
    | succ depth =>
      obtain ⟨vs, -, rfl⟩ := Option.map_eq_some_iff.mp h
      rfl
  | object entries =>
    cases depth with
    | zero => cases h
    | succ depth =>
      obtain ⟨es, -, rfl⟩ := Option.map_eq_some_iff.mp h
      rfl

end Json

namespace Tree

namespace Node

mutual

/-- The node, stored with no more than `depth` levels left, is read back. -/
def Storable (depth : Nat) : Node → Prop
  | .token _ => 0 < depth
  | .group members =>
    0 < depth ∧ Keyed.has members "value" = false ∧ MembersStorable (depth - 1) members
  | .metadata v => v.isObject = false ∧ v.Readable depth

/-- Each of the members of a group is read back. -/
def MembersStorable (depth : Nat) : List (String × Node) → Prop
  | [] => True
  | (_, n) :: rest => n.Storable depth ∧ MembersStorable depth rest

end

mutual

/-- Decides whether a node is storable. -/
def decideStorable (depth : Nat) : (n : Node) → Decidable (n.Storable depth)
  | .token _ => inferInstanceAs (Decidable (0 < depth))
  | .group members => @instDecidableAnd _ _ _
    (@instDecidableAnd _ _ _ (decideMembersStorable (depth - 1) members))
  | .metadata v => inferInstanceAs (Decidable (v.isObject = false ∧ v.Readable depth))

/-- Decides whether the members of a group are storable. -/
def decideMembersStorable (depth : Nat) :
    (members : List (String × Node)) → Decidable (MembersStorable depth members)
  | [] => .isTrue trivial
  | (_, n) :: rest =>
    @instDecidableAnd _ _ (decideStorable depth n) (decideMembersStorable depth rest)

end

/-- What comes back of a stored node. -/
def reread (depth : Nat) (path : List String) (n : Node) : Option Node :=
  (n.toJson.source.value depth).map (ofJson path)

/-- What comes back of the members of a stored group. -/
def rereadMembers (depth : Nat) (path : List String) (members : List (String × Node)) :
    Option (List (String × Node)) :=
  (Json.Source.entryValues depth (Json.entrySources (membersToJson members))).map
    (membersOfEntries path)

theorem keys_membersToJson (members : List (String × Node)) :
    (membersToJson members).map Prod.fst = members.map Prod.fst := by
  induction members with
  | nil => rfl
  | cons e rest ih => rw [membersToJson, List.map_cons, ih, List.map_cons]

theorem keys_membersOfEntries (path : List String) (entries : List (String × Json)) :
    (membersOfEntries path entries).map Prod.fst = entries.map Prod.fst := by
  induction entries with
  | nil => rfl
  | cons e rest ih => rw [membersOfEntries, List.map_cons, ih, List.map_cons]

/-! ### Tokens -/

/-- The entries of a token's document. -/
def tokenEntries (t : Token) : List (String × Json) :=
  [("value", .string t.value), ("type", .string t.kind.name)] ++
    match t.description with
    | some d => [("description", .string d)]
    | none => []

theorem ofName?_name (k : Token.Kind) : Token.Kind.ofName? k.name = some k := by
  cases k <;> decide

theorem entriesReadable_tokenEntries (depth : Nat) (t : Token) :
    Json.EntriesReadable depth (tokenEntries t) := by
  unfold tokenEntries
  split <;> simp [Json.EntriesReadable, Json.Readable]

/-- The object of a token gives the token back. -/
theorem tokenOfEntries_tokenEntries (path : List String) (t : Token) :
    tokenOfEntries path (Keyed.ofList (tokenEntries t)) = t := by
  obtain ⟨value, kind, description⟩ := t
  cases description with
  | none =>
    simp [tokenOfEntries, tokenEntries, Keyed.ofList, Keyed.setAll, Keyed.get?_set,
      Json.asString?, ofName?_name]
  | some d =>
    simp [tokenOfEntries, tokenEntries, Keyed.ofList, Keyed.setAll, Keyed.get?_set,
      Json.asString?, ofName?_name]

theorem reread_token (depth : Nat) (path : List String) (t : Token) :
    reread (depth + 1) path (.token t) = some (.token t) := by
  have hEntries := (Json.entryValues_source_iff depth _).mpr (entriesReadable_tokenEntries depth t)
  have hValue : Keyed.has (Keyed.ofList (tokenEntries t)) "value" = true :=
    (Keyed.has_ofList _ _).mpr ⟨_, List.mem_cons_self, rfl⟩
  show (Json.Source.value (depth + 1) (.object (Json.entrySources (tokenEntries t)))).map
    (ofJson path) = _
  rw [Json.value_object_succ, hEntries, Option.map_some, Option.map_some, ofJson, if_pos hValue,
    tokenOfEntries_tokenEntries]

/-! ### Groups -/

/-- The entries that are read for stored members have their keys. -/
theorem keys_of_stored {members : List (String × Node)} {depth : Nat} {es : List (String × Json)}
    (h : Json.Source.entryValues depth (Json.entrySources (membersToJson members)) = some es) :
    es.map Prod.fst = members.map Prod.fst :=
  (Json.keys_entryValues h).trans (keys_membersToJson members)

/-- They are in order, and so are the members made from them. -/
theorem ofList_of_stored {members : List (String × Node)} (hOrdered : Keyed.Ordered members)
    {depth : Nat} {es : List (String × Json)}
    (h : Json.Source.entryValues depth (Json.entrySources (membersToJson members)) = some es)
    (path : List String) : Keyed.ofList es = es ∧
      Keyed.ofList (membersOfEntries path es) = membersOfEntries path es := by
  have hKeys := keys_of_stored h
  constructor
  · exact Keyed.ofList_of_keys hKeys hOrdered
  · exact Keyed.ofList_of_keys ((keys_membersOfEntries path es).trans hKeys) hOrdered

/-- A stored group comes back as a token or with the members that come back. -/
theorem reread_group {members : List (String × Node)} (hOrdered : Keyed.Ordered members)
    (depth : Nat) (path : List String) : reread (depth + 1) path (.group members) =
      (Json.Source.entryValues depth (Json.entrySources (membersToJson members))).map fun es =>
        if Keyed.has members "value" then .token (tokenOfEntries path es)
        else .group (membersOfEntries path es) := by
  rw [reread, toJson, Json.source, Json.value_object_succ, Option.map_map]
  refine Option.map_congr fun es hes => ?_
  obtain ⟨hEntries, hMembers⟩ := ofList_of_stored hOrdered hes path
  show ofJson path (.object (Keyed.ofList es)) = _
  rw [hEntries, ofJson, Keyed.has_eq_of_keys (keys_of_stored hes), hMembers]

theorem reread_group_iff {members : List (String × Node)} (hOrdered : Keyed.Ordered members)
    (depth : Nat) (path : List String) :
    reread (depth + 1) path (.group members) = some (.group members) ↔
      Keyed.has members "value" = false ∧ rereadMembers depth path members = some members := by
  rw [reread_group hOrdered, rereadMembers, Option.map_eq_some_iff, Option.map_eq_some_iff]
  constructor
  · rintro ⟨es, hes, hEq⟩
    split at hEq
    · cases hEq
    · rename_i hValue
      exact ⟨Bool.eq_false_iff.mpr hValue, es, hes, Node.group.inj hEq⟩
  · rintro ⟨hValue, es, hes, hEq⟩
    refine ⟨es, hes, ?_⟩
    rw [if_neg (Bool.eq_false_iff.mp hValue), hEq]

theorem rereadMembers_cons_iff (depth : Nat) (path : List String) (key : String) (n : Node)
    (rest : List (String × Node)) :
    rereadMembers depth path ((key, n) :: rest) = some ((key, n) :: rest) ↔
      reread depth (path ++ [key]) n = some n ∧ rereadMembers depth path rest = some rest := by
  rw [rereadMembers, membersToJson, Json.entrySources, Json.entryValues_cons, reread,
    rereadMembers, Option.map_eq_some_iff, Option.map_eq_some_iff, Option.map_eq_some_iff]
  constructor
  · rintro ⟨es, hes, hEq⟩
    obtain ⟨v, hv, hes⟩ := Option.bind_eq_some_iff.mp hes
    obtain ⟨vs, hvs, hes⟩ := Option.bind_eq_some_iff.mp hes
    cases hes
    obtain ⟨hHead, hTail⟩ := List.cons.inj hEq
    exact ⟨⟨v, hv, (Prod.mk.inj hHead).2⟩, vs, hvs, hTail⟩
  · rintro ⟨⟨v, hv, hNode⟩, vs, hvs, hRest⟩
    refine ⟨(key, v) :: vs, ?_, ?_⟩
    · rw [hv, Option.bind_some, hvs, Option.bind_some]
    · rw [membersOfEntries, hNode, hRest]

/-! ### Metadata -/

theorem ofJson_of_not_object {v : Json} (h : v.isObject = false) (path : List String) :
    ofJson path v = .metadata v := by
  cases v with
  | object entries => cases h
  | null | bool _ | number _ | string _ | array _ => rfl

theorem ofJson_object_ne_metadata {v : Json} (h : v.isObject = true) (path : List String)
    (w : Json) : ofJson path v ≠ .metadata w := by
  cases v with
  | object entries =>
    rw [ofJson]
    split
    · nofun
    · nofun
  | null | bool _ | number _ | string _ | array _ => cases h

theorem reread_metadata_iff (depth : Nat) (path : List String) (v : Json) :
    reread depth path (.metadata v) = some (.metadata v) ↔
      v.isObject = false ∧ v.Readable depth := by
  rw [← Json.value_source_iff, reread, toJson, Option.map_eq_some_iff]
  constructor
  · rintro ⟨v', hv, hEq⟩
    have hKind := Json.isObject_value hv
    cases hObject : v.isObject with
    | true => exact absurd hEq (ofJson_object_ne_metadata (hKind.trans hObject) path v)
    | false =>
      rw [ofJson_of_not_object (hKind.trans hObject)] at hEq
      exact ⟨rfl, Node.metadata.inj hEq ▸ hv⟩
  · rintro ⟨hObject, hv⟩
    exact ⟨v, hv, ofJson_of_not_object hObject path⟩

/-! ### Trees -/

mutual

/-- **A node comes back exactly if it is storable**, whatever path it is stored under. -/
theorem reread_iff : (n : Node) → n.Ordered → (depth : Nat) → (path : List String) →
    (reread depth path n = some n ↔ n.Storable depth)
  | .token t, _, depth, path => by
    cases depth with
    | zero => simp [reread, toJson, Token.toJson, Json.source, Json.Source.value, Storable]
    | succ depth => simp [reread_token, Storable]
  | .group members, hOrdered, depth, path => by
    cases depth with
    | zero => simp [reread, toJson, Json.source, Json.Source.value, Storable]
    | succ depth =>
      rw [reread_group_iff hOrdered.1, Storable, Nat.add_sub_cancel,
        rereadMembers_iff members hOrdered.2 depth path]
      simp
  | .metadata v, _, depth, path => by
    rw [reread_metadata_iff, Storable]

theorem rereadMembers_iff : (members : List (String × Node)) → MembersOrdered members →
    (depth : Nat) → (path : List String) →
    (rereadMembers depth path members = some members ↔ MembersStorable depth members)
  | [], _, _, _ => by
    simp [rereadMembers, membersToJson, Json.entrySources, Json.Source.entryValues,
      membersOfEntries, MembersStorable]
  | (key, n) :: rest, hOrdered, depth, path => by
    rw [rereadMembers_cons_iff, MembersStorable, reread_iff n hOrdered.1 depth,
      rereadMembers_iff rest hOrdered.2 depth]

end

end Node

/-- The tree, stored with no more than `depth` levels left, is read back. The root is a group
whatever its members are. -/
def Storable (depth : Nat) (t : Tree) : Prop :=
  0 < depth ∧ Node.MembersStorable (depth - 1) t.members

instance (depth : Nat) (t : Tree) : Decidable (t.Storable depth) :=
  @instDecidableAnd _ _ _ (Node.decideMembersStorable (depth - 1) t.members)

/-- What comes back of a stored tree. -/
def reread (depth : Nat) (t : Tree) : Option Tree :=
  (t.toJson.source.value depth).bind fun j => (ofJson j).toOption

theorem reread_succ (depth : Nat) (t : Tree) : t.reread (depth + 1) =
    (Json.Source.entryValues depth (Json.entrySources (Node.membersToJson t.members))).bind
      fun es => (ofJson (.object (Keyed.ofList es))).toOption := by
  rw [reread, toJson, asNode, Node.toJson, Json.source, Json.value_object_succ, Option.bind_map]
  rfl

/-- The root is made from the entries that are read as any group is. -/
theorem ofJson_stored_iff {t : Tree} {depth : Nat} {es : List (String × Json)}
    (h : Json.Source.entryValues depth (Json.entrySources (Node.membersToJson t.members)) =
      some es) : (ofJson (.object (Keyed.ofList es))).toOption = some t ↔
        Node.membersOfEntries [] es = t.members := by
  obtain ⟨hEntries, hMembers⟩ := Node.ofList_of_stored t.ordered.1 h []
  constructor
  · intro hEq
    rw [← Option.some.inj hEq]
    show _ = Keyed.ofList (Node.membersOfEntries [] (Keyed.ofList es))
    rw [hEntries, hMembers]
  · intro hEq
    refine congrArg some (Tree.ext ?_)
    show Keyed.ofList (Node.membersOfEntries [] (Keyed.ofList es)) = t.members
    rw [hEntries, hMembers, hEq]

/-- **A tree comes back exactly if it is storable.** -/
theorem reread_iff (depth : Nat) (t : Tree) : t.reread depth = some t ↔ t.Storable depth := by
  cases depth with
  | zero => simp [reread, toJson, asNode, Node.toJson, Json.source, Json.Source.value, Storable]
  | succ depth =>
    rw [reread_succ, Storable, Nat.add_sub_cancel,
      ← Node.rereadMembers_iff t.members t.ordered.2 depth [], Node.rereadMembers,
      Option.bind_eq_some_iff, Option.map_eq_some_iff]
    constructor
    · rintro ⟨es, hes, hEq⟩
      exact ⟨Nat.succ_pos _, es, hes, (ofJson_stored_iff hes).mp hEq⟩
    · rintro ⟨-, es, hes, hEq⟩
      exact ⟨es, hes, (ofJson_stored_iff hes).mpr hEq⟩

/-! ### Edits -/

namespace Node

theorem membersStorable_iff {depth : Nat} {members : List (String × Node)} :
    MembersStorable depth members ↔ ∀ e ∈ members, e.2.Storable depth := by
  induction members with
  | nil => simp [MembersStorable]
  | cons e rest ih => simp [MembersStorable, ih]

theorem MembersStorable.set {depth : Nat} {members : Keyed Node}
    (h : MembersStorable depth members) (key : String) {n : Node} (hn : n.Storable depth) :
    MembersStorable depth (Keyed.set members key n) := by
  refine membersStorable_iff.mpr fun e he => ?_
  rcases Keyed.mem_set he with rfl | he
  · exact hn
  · exact membersStorable_iff.mp h e he

theorem MembersStorable.get? {depth : Nat} {members : Keyed Node}
    (h : MembersStorable depth members) {key : String} {n : Node}
    (hGet : Keyed.get? members key = some n) : n.Storable depth :=
  membersStorable_iff.mp h _ (Keyed.mem_of_get? hGet)

/-- An edit adds no key but the first one of its path. -/
theorem has_write {full path : List String} {value : String} {members result : Keyed Node}
    (hWrite : write full value path members = some result) {key : String}
    (hKey : path.head? ≠ some key) (hOld : Keyed.has members key = false) :
    Keyed.has result key = false := by
  have hSet : ∀ k n, path.head? = some k → result = Keyed.set members k n →
      Keyed.has result key = false := by
    rintro k n hHead rfl
    refine Bool.eq_false_iff.mpr fun hHas => ?_
    rcases (Keyed.has_set members k n key).mp hHas with rfl | hHas
    · exact hKey hHead
    · rw [hOld] at hHas
      cases hHas
  cases path with
  | nil => cases hWrite
  | cons k rest =>
    cases rest with
    | nil =>
      unfold write at hWrite
      split at hWrite
      · exact hSet k _ rfl (Option.some.inj hWrite).symm
      · cases hWrite
      · cases hWrite
      · exact hSet k _ rfl (Option.some.inj hWrite).symm
      · exact hSet k _ rfl (Option.some.inj hWrite).symm
    | cons next rest =>
      unfold write at hWrite
      split at hWrite
      · obtain ⟨inner, -, hEq⟩ := Option.map_eq_some_iff.mp hWrite
        exact hSet k _ rfl hEq.symm
      · cases hWrite
      · cases hWrite
      · obtain ⟨inner, -, hEq⟩ := Option.map_eq_some_iff.mp hWrite
        exact hSet k _ rfl hEq.symm

theorem MembersStorable.write {depth : Nat} {full path : List String} {value : String}
    {members result : Keyed Node} (h : MembersStorable depth members)
    (hWrite : write full value path members = some result) (hDepth : path.length ≤ depth)
    (hKeys : ∀ key ∈ path.tail, key ≠ "value") : MembersStorable depth result := by
  fun_induction Node.write full value path members generalizing result depth with
  -- the edits that are refused
  | case1 | case3 | case4 | case8 | case9 => cases hWrite
  | case2 key members t hGet =>
    cases hWrite
    exact h.set key hDepth
  | case5 key members hGet | case6 key members hGet =>
    cases hWrite
    exact h.set key hDepth
  | case7 key next rest members inner hGet ih =>
    obtain ⟨inner', hInner, rfl⟩ := Option.map_eq_some_iff.mp hWrite
    obtain ⟨hPos, hValue, hMembers⟩ := h.get? hGet
    rw [List.length_cons] at hDepth
    rw [List.tail_cons, List.forall_mem_cons] at hKeys
    have hRest := ih hMembers hInner (by omega) hKeys.2
    refine h.set key (n := .group inner') ⟨hPos, has_write hInner ?_ hValue, hRest⟩
    intro hHead
    exact hKeys.1 (Option.some.inj hHead)
  | case10 key next rest members hGet ih =>
    obtain ⟨inner', hInner, rfl⟩ := Option.map_eq_some_iff.mp hWrite
    rw [List.length_cons] at hDepth
    rw [List.tail_cons, List.forall_mem_cons] at hKeys
    have hRest : MembersStorable (depth - 1) inner' := ih trivial hInner (by omega) hKeys.2
    refine h.set key (n := .group inner') ⟨by omega, has_write hInner ?_ rfl, hRest⟩
    intro hHead
    exact hKeys.1 (Option.some.inj hHead)

end Node

/-- **An edit keeps a tree storable** if its path has no more keys than there are levels below the
root and none of them but the first is `value`. -/
theorem Storable.set {depth : Nat} {t : Tree} (h : t.Storable depth) {path : String}
    (hDepth : (Text.cut '.' path).length < depth)
    (hKeys : ∀ key ∈ (Text.cut '.' path).tail, key ≠ "value") (value : String) :
    (t.set path value).Storable depth := by
  rw [Tree.set]
  cases hSet : t.set? path value with
  | none => exact h
  | some t' =>
    obtain ⟨hPos, hMembers⟩ := h
    simp only [set?] at hSet
    split at hSet
    · cases hSet
    · split at hSet
      · rename_i members hWrite
        cases hSet
        exact ⟨hPos, hMembers.write hWrite (by omega) hKeys⟩
      · cases hSet

end Tree

end DesignSystem
