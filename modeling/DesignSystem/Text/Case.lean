import DesignSystem.Text.Blank
/-!
# Words and letter case

Names are made of words. A word ends at a hyphen, an underscore or a blank, and before a capital
letter that follows a small letter or a digit. From the words of a name come its form in Pascal
case, `DatePicker`, and in kebab case, `date-picker`. Only the letters `A` to `Z` have two cases.
-/

namespace DesignSystem.Text

/-- What stands between words and belongs to none. -/
def isSeparator (c : Char) : Bool :=
  c == '-' || c == '_' || isBlank c

/-- Whether a capital letter after this character begins a new word. -/
def endsHump (c : Char) : Bool :=
  c.isLower || c.isDigit

/-- The words of a text after the word in progress, given in reverse; `hump` tells whether a
capital letter ends that word. -/
def wordsFrom (word : List Char) (hump : Bool) : List Char → List (List Char)
  | [] => if word = [] then [] else [word.reverse]
  | c :: cs =>
    if isSeparator c then
      if word = [] then wordsFrom [] false cs else word.reverse :: wordsFrom [] false cs
    else if c.isUpper ∧ hump ∧ word ≠ [] then word.reverse :: wordsFrom [c] (endsHump c) cs
    else wordsFrom (c :: word) (endsHump c) cs

/-- The words of a text. -/
def words (cs : List Char) : List (List Char) :=
  wordsFrom [] false cs

/-- A word with its first letter large and the others small. -/
def capitalize : List Char → List Char
  | [] => []
  | c :: cs => c.toUpper :: cs.map Char.toLower

/-- A name in Pascal case. -/
def pascalCase (s : String) : String :=
  String.ofList ((words s.toList).flatMap capitalize)

/-- A name in kebab case. -/
def kebabCase (s : String) : String :=
  String.ofList (['-'].intercalate ((words s.toList).map fun w => w.map Char.toLower))

end DesignSystem.Text
