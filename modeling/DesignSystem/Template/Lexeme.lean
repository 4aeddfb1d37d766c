import DesignSystem.Template.Word
import DesignSystem.Text.Blank
/-!
# The lexemes of templates

The text of a template is cut into text, gaps, and tags in one pass over its characters. Comments
vanish. A tag or a comment takes away the line break right after it, and also the blanks before it
if nothing else stands before it on its line, so that a tag on a line of its own leaves no trace of
the line. A minus at either end of a bracket takes away all blanks on that side instead, and a plus
leaves them alone.
-/

namespace DesignSystem.Template

/-- A piece of the text of a template. -/
inductive Lexeme where
  | text (text : String)
  | gap (words : List Word)
  | tag (words : List Word)

/-- The kinds of brackets. -/
inductive Bracket where
  | gap
  | tag
  | comment
  deriving DecidableEq

/-- The bracket that opens with a brace and `c`. -/
def Bracket.open? (c : Char) : Option Bracket :=
  if c = '\x7b' then some .gap
  else if c = '%' then some .tag
  else if c = '#' then some .comment
  else none

/-! ### Blanks around brackets -/

/-- Whether a character ends a line. -/
def endsLine (c : Char) : Bool :=
  c == '\n' || c == '\r'

/-- A text in reverse without the blanks at its end that begin a line. -/
def dropIndent (read : List Char) : List Char :=
  let kept := read.dropWhile fun c => Text.isBlank c && !endsLine c
  if kept = [] ∨ kept.head? = some '\n' then kept else read

/-- The text before a bracket, in reverse; `fresh` tells whether only blanks precede on the line,
and `mark` is the first character inside the bracket. -/
def textBefore (b : Bracket) (fresh : Bool) (mark : Option Char) (read : List Char) : List Char :=
  if mark = some '-' then read.dropWhile Text.isBlank
  else if mark = some '+' ∨ b = .gap ∨ !fresh then read
  else dropIndent read

/-- What is taken away after a bracket: nothing, a line break, the second half of a line break, or
all blanks. -/
inductive Swallow where
  | nothing
  | lineBreak
  | newline
  | blanks
  deriving DecidableEq

/-- What is taken away after a bracket whose last character inside is `mark`. -/
def Swallow.after (b : Bracket) (mark : Option Char) : Swallow :=
  if mark = some '-' then .blanks
  else if mark = some '+' ∨ b = .gap then .nothing
  else .lineBreak

/-- What is still to be taken away after a character, if that is taken away. -/
def Swallow.step? (s : Swallow) (c : Char) : Option Swallow :=
  match s with
  | nothing => none
  | lineBreak => if c = '\r' then some newline else if c = '\n' then some nothing else none
  | newline => if c = '\n' then some nothing else none
  | blanks => if Text.isBlank c then some blanks else none

/-! ### One pass over the characters -/

/-- Where the pass stands inside a bracket: between words, in a text in quotes, or right after a
backslash in it. -/
inductive Quote where
  | none
  | within (quote : Char)
  | escaped (quote : Char)

/-- Where the pass stands after a character. -/
def Quote.step (q : Quote) (c : Char) : Quote :=
  match q with
  | none => if c = '"' ∨ c = '\x27' then within c else none
  | within quote => if c = '\\' then escaped quote else if c = quote then none else within quote
  | escaped quote => within quote

/-- The change of the number of open parentheses by a character. -/
def depthChange (c : Char) : Int :=
  if c = '(' ∨ c = '[' ∨ c = '\x7b' then 1
  else if c = ')' ∨ c = ']' ∨ c = '\x7d' then -1
  else 0

/-- Where the pass stands, with what it has read there in reverse. A bracket opens and closes with
two characters; `opening` and `closing` stand before the second of them. -/
inductive Place where
  | outside (read : List Char) (fresh : Bool) (swallow : Swallow)
  | opening (bracket : Bracket)
  | comment (last : Option Char)
  | inside (bracket : Bracket) (read : List Char) (quote : Quote) (depth : Int)
  | closing (swallow : Swallow)

/-- The place at the start of a bracket. -/
def Bracket.start : Bracket → Place
  | comment => .comment none
  | b => .inside b [] .none 0

/-- Whether a bracket closes with two characters. -/
def Bracket.closes (b : Bracket) (c : Char) (next : Option Char) : Bool :=
  next == some '\x7d' && c == match b with
    | gap => '\x7d'
    | tag => '%'
    | comment => '#'

/-- The mark at the end of a bracket. -/
def Bracket.mark? (b : Bracket) (last : Option Char) : Option Char :=
  if last = some '-' ∨ (last = some '+' ∧ b ≠ .gap) then last else none

/-- What stands in a bracket, given in reverse, without the marks at its ends. -/
def Bracket.content (b : Bracket) (read : List Char) : List Char :=
  let inner := (if (b.mark? read.head?).isSome then read.tail else read).reverse
  if inner.head? = some '-' ∨ inner.head? = some '+' then inner.tail else inner

/-- The lexeme of what stands in a bracket. -/
def Bracket.lexeme? (b : Bracket) (read : List Char) : Option Lexeme :=
  (words? (b.content read)).map fun words => if b = gap then .gap words else .tag words

/-- Ends a text given in reverse. -/
def endText (read : List Char) (found : List Lexeme) : List Lexeme :=
  if read = [] then found else .text (String.ofList read.reverse) :: found

/-- The lexemes of a text in reverse, after those already found. -/
def lexemesFrom : List Char → Place → List Lexeme → Option (List Lexeme)
  | [], .outside read _ _, found => some (endText read found)
  | [], _, _ => none
  | c :: cs, .outside read fresh swallow, found =>
    match swallow.step? c with
    | some s => lexemesFrom cs (.outside [] (fresh || endsLine c) s) found
    | none => match if c = '\x7b' then cs.head?.bind Bracket.open? else none with
      | some b =>
        lexemesFrom cs (.opening b) (endText (textBefore b fresh cs.tail.head? read) found)
      | none =>
        lexemesFrom cs
          (.outside (c :: read) (endsLine c || (fresh && Text.isBlank c)) .nothing) found
  | _ :: cs, .opening b, found => lexemesFrom cs b.start found
  | c :: cs, .comment last, found =>
    if Bracket.comment.closes c cs.head? then
      lexemesFrom cs (.closing (.after .comment last)) found
    else lexemesFrom cs (.comment (some c)) found
  | c :: cs, .inside b read .none depth, found =>
    if depth = 0 ∧ b.closes c cs.head? then
      (b.lexeme? read).bind fun l =>
        lexemesFrom cs (.closing (.after b (b.mark? read.head?))) (l :: found)
    else lexemesFrom cs (.inside b (c :: read) (Quote.none.step c) (depth + depthChange c)) found
  | c :: cs, .inside b read quote depth, found =>
    lexemesFrom cs (.inside b (c :: read) (quote.step c) depth) found
  | _ :: cs, .closing swallow, found => lexemesFrom cs (.outside [] false swallow) found

/-- The lexemes of a text. -/
def lexemes? (s : String) : Option (List Lexeme) :=
  (lexemesFrom s.toList (.outside [] true .nothing) []).map List.reverse

end DesignSystem.Template
