import DesignSystem.Proofs.Json.Braces
import DesignSystem.Proofs.Tree.Dependence
import DesignSystem.Proofs.Tree.Reload
import DesignSystem.Proofs.Tree.Restyling
/-!
# Values that are not strings

A document may give a token a value that is a number, a list or anything else. The loader keeps its
compact text, and from then on the text alone says what the token is: an alias if it is a path in
braces without a brace in it, a literal otherwise. The texts of almost all values are literals.
Numbers and the like have no brace in front, nor have lists and strings, and an object in another one
brings braces of its own.

One form is left: an object with entries in which there is no other object and no brace in a key or
a string (`isFlat`). Its text reads as an alias of what stands between the braces
(`isAlias_compact`). So **a value that is not a string stays the literal that it is, unless it is
flat** (`nonstring_value_literal_unless_flat`), and a flat one becomes a reference to a path that no
one has written (`flat_value_reads_as_alias`).
-/

namespace DesignSystem

/-! ### Texts that are aliases -/

namespace Token.Value

/-- **A text is an alias if braces stand around something without braces.** -/
theorem isAlias_parse_iff {raw : String} : (parse raw).isAlias = true ↔
    ∃ inner, raw.toList = '\x7b' :: (inner ++ ['\x7d']) ∧ inner ≠ [] ∧
      inner.any Json.isBrace = false := by
  rw [isAlias_parse_iff_braced]
  constructor
  · rintro ⟨path, hBare, rfl⟩
    obtain ⟨hNe, hBraces⟩ := isBare_iff.mp hBare
    exact ⟨path.toList, toList_braced path, hNe, Bool.eq_false_iff.mpr hBraces⟩
  · rintro ⟨inner, hText, hNe, hBraces⟩
    refine ⟨String.ofList inner, isBare_iff.mpr ?_, String.ext ?_⟩
    · rw [String.toList_ofList]
      exact ⟨hNe, Bool.eq_false_iff.mp hBraces⟩
    · rw [toList_braced, String.toList_ofList, hText]

end Token.Value

/-- **The text of a document reads as an alias exactly if the document is flat.** -/
theorem Json.isAlias_compact (j : Json) :
    (Token.Value.parse j.compact).isAlias = j.isFlat := by
  rw [Bool.eq_iff_iff, Token.Value.isAlias_parse_iff, compact, String.toList_ofList,
    exists_braced_iff_isFlat]

namespace Tree

variable {t : Tree}

/-! ### The objects of tokens -/

/-- The object of the token under the given keys, below a group with the given entries. Objects
without a `value` are groups, and nothing in an object with a `value` is a token. -/
def tokenObject? (entries : Keyed Json) : List String → Option (Keyed Json)
  | [] => none
  | key :: rest => match Keyed.get? entries key with
    | some (.object inner) =>
      if Keyed.has inner "value" then if rest = [] then some inner else none
      else tokenObject? inner rest
    | some _ | none => none

/-- The members of a loaded group are found under the keys of its entries. -/
theorem Node.get?_membersOfEntries (path : List String) (entries : Keyed Json) (key : String) :
    Keyed.get? (membersOfEntries path entries) key =
      (Keyed.get? entries key).map (ofJson (path ++ [key])) := by
  induction entries with
  | nil => rfl
  | cons e rest ih =>
    obtain ⟨k, j⟩ := e
    rw [membersOfEntries, Keyed.get?_cons, Keyed.get?_cons, ih]
    by_cases hKey : k = key
    · rw [if_pos hKey, if_pos hKey, hKey, Option.map_some]
    · rw [if_neg hKey, if_neg hKey]

/-- There is no token below one, and none in metadata. -/
theorem Node.asToken?_at?_of_isEnd {n : Node} (hEnd : n.IsEnd) (keys : List String) :
    (n.at? keys).bind asToken? = if keys = [] then n.asToken? else none := by
  cases keys with
  | nil => rw [at?, Option.bind_some, if_pos rfl]
  | cons key rest =>
    rw [if_neg (List.cons_ne_nil key rest)]
    cases n with
    | token _ | metadata _ => rfl
    | group members => cases hEnd

/-- **The tokens of a loaded group come from the objects that have a `value`.** -/
theorem Node.tokens_of_entries {entries : Keyed Json} (hOrdered : (Json.object entries).Ordered)
    (path keys : List String) :
    ((Node.group (Keyed.ofList (membersOfEntries path entries))).at? keys).bind asToken? =
      (tokenObject? entries keys).map (tokenOfEntries (path ++ keys)) := by
  induction keys generalizing entries path with
  | nil => rfl
  | cons key rest ih =>
    rw [Keyed.ofList_of_keys (keys_membersOfEntries path entries) hOrdered.1, at?,
      get?_membersOfEntries, tokenObject?]
    cases hGet : Keyed.get? entries key with
    | none => rfl
    | some j =>
      have hInner := Json.entriesOrdered_iff.mp hOrdered.2 _ (Keyed.mem_of_get? hGet)
      rw [Option.map_some, Option.bind_some]
      cases j with
      | null | bool b | number n | string s | array items =>
        rw [ofJson_of_not_object rfl, asToken?_at?_of_isEnd (n := .metadata _) trivial]
        exact ite_self none
      | object inner =>
        dsimp only
        rw [ofJson]
        split
        · rw [asToken?_at?_of_isEnd (n := .token _) trivial]
          split
          · rename_i hEnd
            rw [hEnd]
            rfl
          · rfl
        · rw [ih hInner, List.append_assoc, List.singleton_append]

/-- The tokens of a loaded tree come from the objects that have a `value`. -/
theorem tokenAt?_of_loaded {v : Json.Value} {entries : Keyed Json} (hDoc : v.doc = .object entries)
    (hLoaded : ofValue v = .ok t) (keys : List String) :
    t.tokenAt? keys = (tokenObject? entries keys).map (tokenOfEntries keys) := by
  have hOrdered : (Json.object entries).Ordered := hDoc ▸ v.ordered
  rw [ofValue, hDoc] at hLoaded
  rw [← Except.ok.inj hLoaded]
  exact Node.tokens_of_entries hOrdered [] keys

/-- An object of a token has a `value`. -/
theorem exists_value_of_tokenObject? {entries object : Keyed Json} {keys : List String}
    (h : tokenObject? entries keys = some object) : ∃ j, Keyed.get? object "value" = some j := by
  induction keys generalizing entries with
  | nil => cases h
  | cons key rest ih =>
    rw [tokenObject?] at h
    split at h
    · split at h
      · rename_i hValue
        split at h
        · cases h
          exact Option.isSome_iff_exists.mp hValue
        · cases h
      · exact ih h
    · cases h
    · cases h

/-! ### The statement -/

/-- The text of a token from a value that is not a string. -/
theorem value_tokenOfEntries {object : Keyed Json} {j : Json}
    (hValue : Keyed.get? object "value" = some j) (hNotString : j.asString? = none)
    (path : List String) : (tokenOfEntries path object).value = j.compact := by
  rw [tokenOfEntries, hValue]
  cases j with
  | string s => cases hNotString
  | null | bool b | number n | array items | object entries => rfl

/-- A literal resolves to itself, under keys that can be told apart in a path. -/
theorem resolve_of_literal {keys : List String} {token : Token} {text : String}
    (hToken : t.tokenAt? keys = some token) (hLiteral : token.parsed = .literal text)
    (hDots : ∀ key ∈ keys, '.' ∉ key.toList) : t.resolve (Text.glue '.' keys) = .ok text := by
  have hNe : keys ≠ [] := by
    rintro rfl
    cases hToken
  apply follow_of_literal List.not_mem_nil ?_ hLiteral
  rw [token?_eq, Text.cut_glue hNe hDots, hToken]

/-- **A value that is not a string stays the literal that it is, unless it is flat.** Every object is
loaded. Each token of the tree comes from an object with a value under its keys. If that is not a
string, the token has its compact text, which is an alias exactly if the value is flat. Otherwise
the text is a literal: style variables show it unchanged, and resolving the token gives it back. -/
theorem nonstring_value_literal_unless_flat {v : Json.Value} {entries : Keyed Json}
    (hDoc : v.doc = .object entries) :
    ∃ t, ofValue v = .ok t ∧
      ∀ keys token, t.tokenAt? keys = some token → ∃ object j,
        tokenObject? entries keys = some object ∧ Keyed.get? object "value" = some j ∧
        (j.asString? = none → token.value = j.compact ∧ token.parsed.isAlias = j.isFlat ∧
          (j.isFlat = false → token.style = j.compact ∧
            (∀ name, t.ShowsIn name keys token → Keyed.get? t.flatten name = some j.compact) ∧
            ((∀ key ∈ keys, '.' ∉ key.toList) →
              t.resolve (Text.glue '.' keys) = .ok j.compact))) := by
  have hObject : v.doc.isObject = true := by
    rw [hDoc]
    rfl
  obtain ⟨t, hLoaded⟩ := exists_loaded hObject
  refine ⟨t, hLoaded, fun keys token hToken => ?_⟩
  have hFrom := hToken
  rw [tokenAt?_of_loaded hDoc hLoaded] at hFrom
  obtain ⟨object, hObject, rfl⟩ := Option.map_eq_some_iff.mp hFrom
  obtain ⟨j, hValue⟩ := exists_value_of_tokenObject? hObject
  refine ⟨object, j, hObject, hValue, fun hNotString => ?_⟩
  have hText := value_tokenOfEntries hValue hNotString keys
  have hAlias : (tokenOfEntries keys object).parsed.isAlias = j.isFlat := by
    rw [Token.parsed, hText, Json.isAlias_compact]
  refine ⟨hText, hAlias, fun hNotFlat => ?_⟩
  have hLiteral : (tokenOfEntries keys object).parsed = .literal j.compact := by
    rw [Token.parsed, hText]
    apply Token.Value.parse_of_not_alias
    rw [Json.isAlias_compact, hNotFlat]
  have hStyle : (tokenOfEntries keys object).style = j.compact := by
    rw [Token.style, hLiteral, Token.Value.style]
  refine ⟨hStyle, fun name hShows => ?_, fun hDots => resolve_of_literal hToken hLiteral hDots⟩
  exact get?_flatten_eq_some_iff.mpr ⟨keys, _, hShows, hStyle⟩

/-- A shadow given as an object in an object. -/
def nestedText : String :=
  "\x7b\"offset\":\x7b\"x\":\"0\"\x7d\x7d"

/-- Tokens with an object in an object, with a list of objects, and with a number. -/
def nestedEntries : Keyed Json :=
  [("effect", .object [("soft", .object [("value",
      .object [("offset", .object [("x", .string "0")])])])]),
    ("stops", .object [("value", .array [.object [("at", .number (.int 50 (by decide)))]])]),
    ("weight", .object [("value", .number (.int 700 (by decide)))])]

/-- The text of an object in an object is shown and found as it is. -/
theorem nested_value_literal : (Json.object nestedEntries).toValue.doc = .object nestedEntries ∧
    ∃ t, ofValue (Json.object nestedEntries).toValue = .ok t ∧
      t.token? "effect.soft" = some ⟨nestedText, .shadow, none⟩ ∧
      Keyed.get? t.flatten "--ds-effect-soft" = some nestedText ∧
      t.resolve "effect.soft" = .ok nestedText := by
  have hDoc : (Json.object nestedEntries).toValue.doc = .object nestedEntries := by decide +kernel
  obtain ⟨t, hLoaded, hTokens⟩ := nonstring_value_literal_unless_flat hDoc
  have hToken : t.tokenAt? ["effect", "soft"] = some ⟨nestedText, .shadow, none⟩ := by
    rw [tokenAt?_of_loaded hDoc hLoaded]
    decide +kernel
  obtain ⟨object, j, hObject, hValue, hText⟩ := hTokens _ _ hToken
  have hNested : tokenObject? nestedEntries ["effect", "soft"] = some [("value",
      .object [("offset", .object [("x", .string "0")])])] := by decide +kernel
  cases hNested.symm.trans hObject
  cases (Option.some.inj hValue : Json.object _ = j)
  obtain ⟨-, -, hLiteral⟩ := hText rfl
  obtain ⟨hStyle, hShown, hResolved⟩ := hLiteral (by decide +kernel)
  cases hLoaded
  refine ⟨hDoc, _, rfl, hToken, ?_, ?_⟩
  · exact hShown _ ⟨by decide +kernel, by decide +kernel, by decide +kernel⟩
  · exact hResolved (by decide +kernel)

/-- A flat object. -/
def flatValue : Json :=
  .object [("blur", .number (.int 4 (by decide)))]

/-- **A flat object is taken for an alias** of the text between its braces, to which no one has given
a token. So a reference is shown in its place, and resolving it fails. -/
theorem flat_value_reads_as_alias : flatValue.asString? = none ∧
    ∃ t, ofValue (Json.object [("x", .object [("value", flatValue)])]).toValue = .ok t ∧
      t.token? "x" = some ⟨flatValue.compact, .dimension, none⟩ ∧
      (Token.Value.parse flatValue.compact).isAlias = true ∧
      Keyed.get? t.flatten "--ds-x" = some "var(--ds-\"blur\":4)" ∧
      t.resolve "x" = .error (.unresolved "x" "\"blur\":4") := by
  have hLoaded : ofValue (Json.object [("x", .object [("value", flatValue)])]).toValue =
      .ok (empty.set "x" flatValue.compact) := by decide +kernel
  have hToken : (empty.set "x" flatValue.compact).token? "x" =
      some ⟨flatValue.compact, .dimension, none⟩ := by decide +kernel
  have hParsed : Token.Value.parse flatValue.compact = .aliasTo (.ofDotted "\"blur\":4") := by
    decide +kernel
  have hNone : (empty.set "x" flatValue.compact).token? "\"blur\":4" = none := by decide +kernel
  refine ⟨rfl, _, hLoaded, hToken, ?_, by decide +kernel, ?_⟩
  · rw [hParsed]
    rfl
  · rw [resolve, follow_of_alias List.not_mem_nil hToken hParsed, Token.Target.dotted_ofDotted,
      follow_of_none (by decide) hNone]
    rfl

end Tree

end DesignSystem
