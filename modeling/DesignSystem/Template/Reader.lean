import DesignSystem.Template.Lexeme
import DesignSystem.Template.Syntax
/-!
# Reading templates

An expression is read from its words by descent. From weak to strong the operators are `if`, `or`,
`and`, `not`, the comparisons and `~`; a minus, fields, items, arguments, filters and tests belong
to an operand. Every step down into parentheses, brackets or braces, and every tag around the
expression, uses up a level, and there is a bound on the levels.

The lexemes of a template are put together by a machine that keeps the open tags on a stack.
-/

namespace DesignSystem.Template

/-! ### Reading from words -/

/-- A way to read something from the first words, with the words after it. -/
abbrev Reading (α : Type) := List Word → Option (α × List Word)

/-- The words after a given sign. -/
def afterSign (s : Sign) : List Word → Option (List Word)
  | .sign t :: ws => if t = s then some ws else none
  | _ => none

/-- Items with commas between them up to a sign, and one comma more if it pleases. The bound is on
the number of items. -/
def itemsUntil {α : Type} (item : Reading α) (close : Sign) : Nat → Reading (List α)
  | 0, _ => none
  | bound + 1, ws => match afterSign close ws with
    | some ws => some ([], ws)
    | none => do
      let (a, ws) ← item ws
      match afterSign close ws with
      | some ws => return ([a], ws)
      | none =>
        let (rest, ws) ← itemsUntil item close bound (← afterSign .comma ws)
        return (a :: rest, ws)

/-! ### Operands -/

/-- The value that a name stands for everywhere. -/
def constant? (name : String) : Option Value :=
  match name with
  | "true" | "True" => some (.bool true)
  | "false" | "False" => some (.bool false)
  | "none" | "None" => some .null
  | _ => none

/-- The key and the value of an entry of a map. -/
def mapEntry (nested : Reading Expr) : Reading (String × Expr)
  | .text key :: ws => do
    let (e, ws) ← nested (← afterSign .colon ws)
    return ((key, e), ws)
  | _ => none

/-- What stands in parentheses: a list if there is a comma or nothing, and else an expression. -/
def parenthesized (nested : Reading Expr) (ws : List Word) : Option (Expr × List Word) :=
  match afterSign .closeParen ws with
  | some ws => some (.list [], ws)
  | none => do
    let (e, ws) ← nested ws
    match afterSign .closeParen ws with
    | some ws => return (e, ws)
    | none =>
      let ws ← afterSign .comma ws
      let (rest, ws) ← itemsUntil nested .closeParen ws.length ws
      return (.list (e :: rest), ws)

/-- A constant, a name, or an expression in parentheses, brackets or braces. -/
def atom (nested : Reading Expr) : Reading Expr
  | .name s :: ws => some ((constant? s).elim (.variable s) .literal, ws)
  | .text s :: ws => some (.literal (.text s), ws)
  | .number n :: ws => some (.literal (.number n), ws)
  | .sign .openParen :: ws => parenthesized nested ws
  | .sign .openBracket :: ws => do
    let (items, ws) ← itemsUntil nested .closeBracket ws.length ws
    return (.list items, ws)
  | .sign .openBrace :: ws => do
    let (entries, ws) ← itemsUntil (mapEntry nested) .closeBrace ws.length ws
    return (.map (entries.map Prod.fst) (entries.map Prod.snd), ws)
  | _ => none

/-- An atom with minus signs in front. -/
def signed (nested : Reading Expr) : Reading Expr
  | .sign .minus :: ws => (signed nested ws).map fun (e, ws) => (.opposite e, ws)
  | ws => atom nested ws

/-- An argument, with its name if it has one. -/
def argument (nested : Reading Expr) : Reading (Option String × Expr)
  | .name key :: .sign .assign :: ws => (nested ws).map fun (e, ws) => ((some key, e), ws)
  | ws => (nested ws).map fun (e, ws) => ((none, e), ws)

/-- The arguments up to a closing parenthesis, with the names of the last ones. -/
def arguments (nested : Reading Expr) (ws : List Word) :
    Option ((List Expr × List String) × List Word) := do
  let (args, ws) ← itemsUntil (argument nested) .closeParen (ws.length + 1) ws
  let named := args.dropWhile fun a => a.1.isNone
  if named.all fun a => a.1.isSome then
    return ((args.map Prod.snd, named.filterMap Prod.fst), ws)
  else none

/-- The arguments in parentheses, if there are parentheses. -/
def argumentsIfAny (nested : Reading Expr) : Reading (List Expr × List String)
  | .sign .openParen :: ws => arguments nested ws
  | ws => some (([], []), ws)

/-- Whether a word begins the argument of a test that stands without parentheses. -/
def startsArgument : Word → Bool
  | .name s => !(["and", "or", "else", "is"].contains s)
  | .text _ | .number _ => true
  | .sign s => s == .minus || s == .openBracket || s == .openBrace

/-- The fields, items and arguments after a value. The bound is on their number. -/
def fieldsFrom (nested : Reading Expr) : Nat → Expr → Reading Expr
  | bound + 1, e, .sign .dot :: .name key :: ws => fieldsFrom nested bound (.field e key) ws
  | bound + 1, e, .sign .openBracket :: ws => do
    let (key, ws) ← nested ws
    fieldsFrom nested bound (.item e key) (← afterSign .closeBracket ws)
  | bound + 1, e, .sign .openParen :: ws => do
    let ((args, keys), ws) ← arguments nested ws
    fieldsFrom nested bound (.call e args keys) ws
  | _, e, ws => some (e, ws)

/-- The argument of a test that stands without parentheses, if there is one. -/
def bareArgument (nested inner : Reading Expr) (ws : List Word) : Option (List Expr × List Word) :=
  if ws.head?.any startsArgument then do
    let (e, ws) ← signed inner ws
    let (e, ws) ← fieldsFrom nested ws.length e ws
    return ([e], ws)
  else some ([], ws)

/-- The name and the arguments of a test of a value. -/
def testOf (nested inner : Reading Expr) (e : Expr) : Reading Expr
  | .name test :: .sign .openParen :: ws => do
    let ((args, _), ws) ← arguments nested ws
    return (.test e test args, ws)
  | .name test :: ws => do
    let (args, ws) ← bareArgument nested inner ws
    return (.test e test args, ws)
  | _ => none

/-- The filters and tests after a value. The bound is on their number. -/
def filtersFrom (nested inner : Reading Expr) : Nat → Expr → Reading Expr
  | bound + 1, e, .sign .bar :: .name f :: ws => do
    let ((args, keys), ws) ← argumentsIfAny nested ws
    filtersFrom nested inner bound (.filter e f args keys) ws
  | bound + 1, e, .name "is" :: .name "not" :: ws => do
    let (e, ws) ← testOf nested inner e ws
    filtersFrom nested inner bound (.negate e) ws
  | bound + 1, e, .name "is" :: ws => do
    let (e, ws) ← testOf nested inner e ws
    filtersFrom nested inner bound e ws
  | _, e, ws => some (e, ws)

/-- An operand: `nested` reads what stands in parentheses after a value, `inner` what stands in
those that make one. -/
def operand (nested inner : Reading Expr) (ws : List Word) : Option (Expr × List Word) := do
  let (e, ws) ← signed inner ws
  let (e, ws) ← fieldsFrom nested ws.length e ws
  filtersFrom nested inner ws.length e ws

/-! ### Operators -/

/-- Operands with one operator between them, from the left. The bound is on the operators. -/
def chainFrom (operand : Reading Expr) (operator : Word → Bool) (combine : Expr → Expr → Expr) :
    Nat → Expr → Reading Expr
  | bound + 1, e, w :: ws =>
    if operator w then do
      let (f, ws) ← operand ws
      chainFrom operand operator combine bound (combine e f) ws
    else some (e, w :: ws)
  | _, e, ws => some (e, ws)

/-- Operands with one operator between them. -/
def chain (operand : Reading Expr) (operator : Word → Bool) (combine : Expr → Expr → Expr)
    (ws : List Word) : Option (Expr × List Word) := do
  let (e, ws) ← operand ws
  chainFrom operand operator combine ws.length e ws

/-- Whether a word is a given name. -/
def Word.isName (name : String) : Word → Bool
  | .name s => s == name
  | _ => false

/-- Texts put together by `~`. -/
def concatenation (operand : Reading Expr) : Reading Expr :=
  chain operand (fun w => w matches .sign .tilde) .concat

/-- The comparison that the first words stand for, whether it is denied, and the words after. -/
def comparison : Reading (Comparison × Bool)
  | .sign (.compare c) :: ws => some ((c, false), ws)
  | .name "in" :: ws => some ((.within, false), ws)
  | .name "not" :: .name "in" :: ws => some ((.within, true), ws)
  | _ => none

/-- Whether the first words must be a comparison if they belong to the expression. -/
def startsComparison : List Word → Bool
  | .sign (.compare _) :: _ => true
  | .name s :: _ => s == "in" || s == "not"
  | _ => false

/-- The comparisons that follow `left`: each holds between neighbours, and `before` is what the ones
so far say. The bound is on their number. -/
def comparisonsFrom (operand : Reading Expr) :
    Nat → (before : Option Expr) → (left : Expr) → Reading Expr
  | bound + 1, before, left, ws =>
    if startsComparison ws then do
      let ((c, denied), ws) ← comparison ws
      let (right, ws) ← operand ws
      let e := if denied then Expr.negate (.compare c left right) else .compare c left right
      comparisonsFrom operand bound (some (before.elim e fun b => .both b e)) right ws
    else some (before.getD left, ws)
  | 0, before, left, ws => some (before.getD left, ws)

/-- Comparisons between neighbours. -/
def comparisons (operand : Reading Expr) (ws : List Word) : Option (Expr × List Word) := do
  let (e, ws) ← operand ws
  comparisonsFrom operand (ws.length + 1) none e ws

/-- A condition with `not` in front. -/
def negation (operand : Reading Expr) : Reading Expr
  | .name "not" :: ws => (negation operand ws).map fun (e, ws) => (.negate e, ws)
  | ws => operand ws

/-- Operands with `and` and `or` between them. -/
def alternatives (operand : Reading Expr) : Reading Expr :=
  chain (chain (negation (comparisons (concatenation operand))) (Word.isName "and") .both)
    (Word.isName "or") .either

/-- An expression that may depend on a condition after it. The bound is on the conditions. -/
def dependentFrom (operand : Reading Expr) : Nat → Reading Expr
  | 0, ws => operand ws
  | bound + 1, ws => do
    let (e, ws) ← operand ws
    match ws with
    | .name "if" :: ws =>
      let (condition, ws) ← operand ws
      match ws with
      | .name "else" :: ws =>
        let (other, ws) ← dependentFrom operand bound ws
        return (.conditional condition e other, ws)
      | ws => return (.conditional condition e (.literal (.text "")), ws)
    | ws => return (e, ws)

/-- An expression that may depend on a condition after it. -/
def dependent (operand : Reading Expr) (ws : List Word) : Option (Expr × List Word) :=
  dependentFrom operand ws.length ws

/-- An expression without conditions after it, with a number of levels for what is inside it. -/
def Expr.simple : (levels : Nat) → Reading Expr
  | 0 => fun _ => none
  | 1 => alternatives (operand (fun _ => none) (fun _ => none))
  | levels + 2 =>
    alternatives (operand (dependent (simple (levels + 1))) (dependent (simple levels)))

/-- An expression, with a number of levels for itself and what is inside it. -/
def Expr.full : (levels : Nat) → Reading Expr
  | 0 => fun _ => none
  | levels + 1 => dependent (simple levels)

/-! ### Tags -/

/-- What a tag says. -/
inductive Tag where
  | choose (condition : Expr)
  | chooseElse (condition : Expr)
  | otherwise
  | endChoose
  | each (target : Target) (items condition : Expr)
  | endEach

/-- Names that no item of a list may take. -/
def reservedNames : List String :=
  ["true", "True", "false", "False", "none", "None", "loop", "self"]

/-- What has been read, if no words are left. -/
def complete {α : Type} : α × List Word → Option α
  | (a, []) => some a
  | (_, _ :: _) => none

/-- The name of an item. -/
def itemName : Reading String
  | .name x :: ws => if reservedNames.contains x then none else some (x, ws)
  | _ => none

/-- The names of the parts of an item after the first one. -/
def partNames : (bound : Nat) → Reading (List String)
  | bound + 1, .sign .comma :: ws =>
    match ws with
    | .name "in" :: _ => some ([], ws)
    | ws => do
      let (x, ws) ← itemName ws
      let (xs, ws) ← partNames bound ws
      return (x :: xs, ws)
  | _, ws => some ([], ws)

/-- What the items of a loop are called. -/
def Target.read (ws : List Word) : Option (Target × List Word) := do
  let (x, ws) ← itemName ws
  match afterSign .comma ws with
  | none => return (.whole x, ws)
  | some _ =>
    let (xs, ws) ← partNames ws.length ws
    return (.parts (x :: xs), ws)

/-- The loop that words describe after `for`. -/
def Tag.loop? (levels : Nat) (ws : List Word) : Option Tag := do
  let (target, ws) ← Target.read ws
  match ws with
  | .name "in" :: ws =>
    let (items, ws) ← Expr.simple levels ws
    match ws with
    | .name "if" :: ws =>
      let condition ← complete (← Expr.full levels ws)
      return .each target items condition
    | ws => complete (.each target items (.literal (.bool true)), ws)
  | _ => none

/-- The tag of words inside of `depth` tags, with a number of levels for itself and those. -/
def Tag.ofWords? (levels depth : Nat) : List Word → Option Tag
  | [.name "else"] => some .otherwise
  | [.name "endif"] => some .endChoose
  | [.name "endfor"] => some .endEach
  | .name "if" :: ws =>
    ((Expr.simple (levels - depth - 1) ws).bind complete).map .choose
  | .name "elif" :: ws => ((Expr.simple (levels - depth) ws).bind complete).map .chooseElse
  | .name "for" :: ws => Tag.loop? (levels - depth - 1) ws
  | _ => none

/-! ### Parts -/

/-- An open tag with the parts before it and, in a choice, the branches that are complete; all in
reverse. -/
inductive Open where
  | choice (before : List Part) (branches : List (Expr × List Part)) (condition : Expr)
  | otherwise (before : List Part) (branches : List (Expr × List Part))
  | each (before : List Part) (target : Target) (items condition : Expr)
  | eachOtherwise (before : List Part) (target : Target) (items condition : Expr)
      (body : List Part)

/-- The choice of the first branch, in reverse, whose condition holds, or else of the last parts. -/
def ofBranches (branches : List (Expr × List Part)) (last : List Part) : List Part :=
  branches.foldl (fun no (condition, yes) => [.choice condition yes no]) last

/-- How many levels a template may have. -/
def maxLevels : Nat :=
  150

/-- The machine takes a tag. -/
def stepTag : List Part × List Open → Tag → Option (List Part × List Open)
  | (parts, stack), .choose condition => some ([], .choice parts [] condition :: stack)
  | (parts, stack), .each target items condition =>
    some ([], .each parts target items condition :: stack)
  | (parts, .choice before branches condition :: stack), .chooseElse next =>
    some ([], .choice before ((condition, parts.reverse) :: branches) next :: stack)
  | (parts, .choice before branches condition :: stack), .otherwise =>
    some ([], .otherwise before ((condition, parts.reverse) :: branches) :: stack)
  | (parts, .choice before branches condition :: stack), .endChoose =>
    some (ofBranches ((condition, parts.reverse) :: branches) [] ++ before, stack)
  | (parts, .otherwise before branches :: stack), .endChoose =>
    some (ofBranches branches parts.reverse ++ before, stack)
  | (parts, .each before target items condition :: stack), .otherwise =>
    some ([], .eachOtherwise before target items condition parts.reverse :: stack)
  | (parts, .each before target items condition :: stack), .endEach =>
    some (.each target items condition parts.reverse [] :: before, stack)
  | (parts, .eachOtherwise before target items condition body :: stack), .endEach =>
    some (.each target items condition body parts.reverse :: before, stack)
  | _, _ => none

/-- The machine takes one lexeme: `parts` are the latest parts in reverse, `stack` the open tags. -/
def step : List Part × List Open → Lexeme → Option (List Part × List Open)
  | (parts, stack), .text s => some (.text s :: parts, stack)
  | (parts, stack), .gap words => do
    let e ← complete (← Expr.full (maxLevels - stack.length) words)
    return (.print e :: parts, stack)
  | (parts, stack), .tag words => do
    stepTag (parts, stack) (← Tag.ofWords? maxLevels stack.length words)

/-- The template of a text. -/
def read (s : String) : Except Error Template :=
  match (lexemes? s).bind fun lexemes => lexemes.foldlM step ([], []) with
  | some (parts, []) => .ok parts.reverse
  | _ => .error .malformed

end DesignSystem.Template
