/-!
# Cutting a text at a separator

`cut` splits a text at every occurrence of one character and `glue` joins pieces with it. Joining
undoes cutting (`glue_cut`), so a text and its pieces carry the same information.
-/

namespace DesignSystem.Text

/-- The pieces of a text between the occurrences of `sep`, empty ones included. A text without
the separator is its own only piece. -/
def cut (sep : Char) (s : String) : List String :=
  (s.toList.splitOn sep).map String.ofList

/-- The pieces one after the other with `sep` between neighbours. -/
def glue (sep : Char) (pieces : List String) : String :=
  (String.singleton sep).intercalate pieces

theorem glue_cut (sep : Char) (s : String) : glue sep (cut sep s) = s := by
  apply String.ext
  simp [glue, cut, String.toList_intercalate, List.map_map, Function.comp_def,
    List.intercalate_splitOn]

/-- `s` without `head` in front, if it starts with it. -/
def dropPrefix? (head s : String) : Option String :=
  if head.toList.isPrefixOf s.toList then some (String.ofList (s.toList.drop head.toList.length))
  else none

/-- Whether `tail` ends `s`. -/
def endsWith (s tail : String) : Bool :=
  tail.toList.isSuffixOf s.toList

/-- Whether `part` occurs somewhere in `s`. -/
def occursIn (part : List Char) : List Char → Bool
  | [] => part.isEmpty
  | c :: cs => part.isPrefixOf (c :: cs) || occursIn part cs

/-- The text of the given lines, each with a line break at its end. -/
def lines (ls : List String) : String :=
  String.join (ls.map fun l => l ++ "\n")

/-- `s` filled up with spaces on the right to `width` characters. -/
def padRight (width : Nat) (s : String) : String :=
  s ++ String.ofList (List.replicate (width - s.length) ' ')

end DesignSystem.Text
