import DesignSystem.Template.Written
import DesignSystem.Text.Cut
/-!
# Comparing values

Numbers are compared by what they represent, whichever way they are given; `true` and `false` count
as one and zero. Lists and maps are compared part by part.
-/

namespace DesignSystem.Template

namespace Number

/-- The number as a quotient of an integer and a natural number. -/
def ratio : Number → Int × Nat
  | int value => (value, 1)
  | float value =>
    let (n, d) := value.magnitude
    (if value.negative then -(n : Int) else n, d)

/-- The order of two numbers. -/
def order (a b : Number) : Ordering :=
  compare (a.ratio.1 * b.ratio.2) (b.ratio.1 * a.ratio.2)

/-- The largest integers of 64 and 128 bits. Each also counts as equal to the floating-point number
one above it, which is the nearest to it. -/
def isLargestWord (i : Int) : Bool :=
  i == 18446744073709551615 || i == 340282366920938463463374607431768211455

/-- Whether an integer counts as equal to a floating-point number. -/
def sameMixed (i : Int) (x : Binary64) : Bool :=
  order (int i) (float x) == .eq || (isLargestWord i && order (int (i + 1)) (float x) == .eq)

/-- Whether two numbers count as equal. -/
def same : Number → Number → Bool
  | int i, int j => i == j
  | int i, float x => sameMixed i x
  | float x, int i => sameMixed i x
  | float x, float y => x.sameValue y

end Number

/-- The place of a kind among the kinds. -/
def Kind.rank : Kind → Nat
  | undefined => 0
  | null => 1
  | bool => 2
  | number => 3
  | text => 4
  | list => 5
  | map => 6
  | other => 7

namespace Value

/-- The number that a value counts as. -/
def asNumber? : Value → Option Number
  | number n => some n
  | bool b => some (.int (if b then 1 else 0))
  | _ => none

mutual

/-- Whether two values count as equal. -/
def same : Value → Value → Bool
  | undefined, undefined => true
  | null, null => true
  | text s, text t => s == t
  | list xs, list ys => sameItems xs ys
  | map xs, map ys => sameEntries xs ys
  | loop i n _ _, loop j m _ _ => i == j && n == m
  | function f, function g => f == g
  | v, w => match v.asNumber?, w.asNumber? with
    | some a, some b => a.same b
    | _, _ => false

/-- Whether two lists count as equal. -/
def sameItems : List Value → List Value → Bool
  | [], [] => true
  | x :: xs, y :: ys => same x y && sameItems xs ys
  | _, _ => false

/-- Whether the entries of two maps in key order count as equal. -/
def sameEntries : List (String × Value) → List (String × Value) → Bool
  | [], [] => true
  | (k, x) :: xs, (l, y) :: ys => k == l && same x y && sameEntries xs ys
  | _, _ => false

end

mutual

/-- The order of two values: by kind, and then by number, by text, or part by part. -/
def order : Value → Value → Ordering
  | text s, text t => compare s t
  | list xs, list ys => orderItems xs ys
  | map xs, map ys => orderEntries xs ys
  | v, w =>
    if v.kind ≠ w.kind then compare v.kind.rank w.kind.rank
    else match v.asNumber?, w.asNumber? with
      | some a, some b => a.order b
      | _, _ => .eq

/-- The order of two lists. -/
def orderItems : List Value → List Value → Ordering
  | [], [] => .eq
  | [], _ :: _ => .lt
  | _ :: _, [] => .gt
  | x :: xs, y :: ys => (order x y).then (orderItems xs ys)

/-- The order of the entries of two maps. -/
def orderEntries : List (String × Value) → List (String × Value) → Ordering
  | [], [] => .eq
  | [], _ :: _ => .lt
  | _ :: _, [] => .gt
  | (k, x) :: xs, (l, y) :: ys =>
    ((compare k l).then (order x y)).then (orderEntries xs ys)

end

/-- Whether a value occurs in another: as an item of a list, a key of a map, or a part of a text. -/
def contains? (whole part : Value) : Option Bool :=
  match whole with
  | list items => some (items.any fun v => v.same part)
  | map entries => match part with
    | text k => some (Keyed.has entries k)
    | _ => some false
  | text s => some (Text.occursIn part.write.toList s.toList)
  | undefined | null | bool _ | number _ | loop .. | function _ => none

end Value

/-- The ways of comparing two values. -/
inductive Comparison where
  | equal
  | unequal
  | less
  | lessOrEqual
  | greater
  | greaterOrEqual
  | within
  deriving DecidableEq

/-- Whether two values compare in a way, if they can be compared in it. -/
def Comparison.holds? (c : Comparison) (v w : Value) : Option Bool :=
  match c with
  | equal => some (v.same w)
  | unequal => some !v.same w
  | less => some (v.order w == .lt)
  | lessOrEqual => some (v.order w != .gt)
  | greater => some (v.order w == .gt)
  | greaterOrEqual => some (v.order w != .lt)
  | within => w.contains? v

end DesignSystem.Template
