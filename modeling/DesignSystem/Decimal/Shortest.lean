import DesignSystem.Decimal.Binary64
/-!
# The fewest digits that read back

The decimal text of a floating-point number uses the fewest significant digits that read back as
the same number. For one, two, … seventeen digits the two decimals next to the value on that grid
are read back; the first grid with a hit gives the digits, and of two hits the nearer is taken, at
equal distance the even one. Should no grid hit, the exact decimal expansion is used.
-/

namespace DesignSystem

/-- The decimal `digits * 10 ^ exponent`. -/
structure Decimal where
  digits : Nat
  exponent : Int
  deriving DecidableEq

namespace Decimal

/-- Trailing zeros of the digits moved into the exponent, at most `budget` of them. -/
def strip : Nat → Decimal → Decimal
  | 0, d => d
  | budget + 1, d =>
    if d.digits ≠ 0 ∧ d.digits % 10 = 0 then strip budget ⟨d.digits / 10, d.exponent + 1⟩ else d

/-- The decimal without trailing zeros. -/
def reduced (d : Decimal) : Decimal :=
  strip d.digits.log2 d

/-- The number nearest to the decimal. -/
def read (negative : Bool) (d : Decimal) : Option Binary64 :=
  Binary64.ofDecimal negative d.digits d.exponent

/-- Whether `10 ^ e ≤ num / den`. -/
def reaches (num den : Nat) (e : Int) : Bool :=
  decide (Binary64.raise 10 e den ≤ Binary64.raise 10 (-e) num)

/-- The power of ten of the leading digit of `num / den`. -/
def leadingExponent (num den : Nat) : Int :=
  let estimate : Int := (((num.log2 : Int) - den.log2) * 30103) / 100000
  if reaches num den (estimate + 1) then estimate + 1
  else if reaches num den estimate then estimate
  else estimate - 1

/-- The decimals next to the magnitude of `x` with `places` significant digits that read back as
`x`, the preferred one first. -/
def onGrid (x : Binary64) (places : Nat) : Option Decimal :=
  let (num, den) := x.magnitude
  let step := leadingExponent num den - places + 1
  let n := Binary64.raise 10 (-step) num
  let d := Binary64.raise 10 step den
  let below : Decimal := ⟨n / d, step⟩
  let above : Decimal := ⟨n / d + 1, step⟩
  let preferred := if Binary64.roundQuotient n d = n / d then [below, above] else [above, below]
  preferred.find? fun c => c.read x.negative == some x

/-- All digits of the magnitude of `x`. -/
def exact (x : Binary64) : Decimal :=
  if 0 ≤ x.exponent then ⟨Binary64.raise 2 x.exponent x.significand, 0⟩
  else ⟨Binary64.raise 5 (-x.exponent) x.significand, x.exponent⟩

/-- The decimal with the fewest digits that reads back as `x`, up to its sign. -/
def shortest (x : Binary64) : Decimal :=
  if x.isZero then ⟨0, 0⟩
  else (((List.range 17).findSome? fun i => onGrid x (i + 1)).getD (exact x)).reduced

end Decimal

end DesignSystem
