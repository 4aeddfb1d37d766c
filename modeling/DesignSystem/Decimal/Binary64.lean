/-!
# Finite binary floating-point numbers

The finite values of the 64-bit binary format as exact data: a sign, a significand below `2 ^ 53`
and a power of two. Reading a decimal is one correctly rounded quotient of natural numbers
(`Binary64.ofRatio`), so nothing here depends on the machine's floating-point unit.
-/

namespace DesignSystem

namespace Binary64

/-- The bound of all significands, `2 ^ 53`. -/
def bound : Nat :=
  9007199254740992

/-- The bound of the significands with a leading zero, `2 ^ 52`. -/
def halfBound : Nat :=
  4503599627370496

/-- Significand and exponent are in lowest form: the significand is below its bound, and it has no
leading zero unless the exponent is the least one. -/
def Canonical (significand : Nat) (exponent : Int) : Prop :=
  significand < bound ∧ -1074 ≤ exponent ∧ exponent ≤ 971 ∧
    (exponent = -1074 ∨ halfBound ≤ significand)

instance (significand : Nat) (exponent : Int) : Decidable (Canonical significand exponent) :=
  inferInstanceAs (Decidable (_ ∧ _))

end Binary64

/-- The number `significand * 2 ^ exponent` with a sign; there are two zeros. -/
structure Binary64 where
  negative : Bool
  significand : Nat
  exponent : Int
  canonical : Binary64.Canonical significand exponent
  deriving DecidableEq

namespace Binary64

/-- The zero of either sign. -/
def zero (negative : Bool) : Binary64 :=
  ⟨negative, 0, -1074, by decide⟩

instance : Inhabited Binary64 := ⟨zero false⟩

/-- The same magnitude with the given sign. -/
def withSign (x : Binary64) (negative : Bool) : Binary64 :=
  { x with negative }

/-- `n * base ^ e`, where a negative exponent counts as zero. Numerator and denominator raised by
opposite exponents make a quotient times a power. -/
def raise (base : Nat) (e : Int) (n : Nat) : Nat :=
  n * Nat.pow base e.toNat

/-- The magnitude as a numerator over a denominator. -/
def magnitude (x : Binary64) : Nat × Nat :=
  (raise 2 x.exponent x.significand, raise 2 (-x.exponent) 1)

/-- The integer nearest to a quotient; a half goes to the even neighbour. -/
def roundQuotient (num den : Nat) : Nat :=
  let q := num / den
  let r := num % den
  if 2 * r < den then q
  else if den < 2 * r then q + 1
  else if q % 2 = 0 then q
  else q + 1

/-- `num / den` divided by a power of two, as a quotient again. -/
def unscale (num den : Nat) (exponent : Int) : Nat × Nat :=
  (raise 2 (-exponent) num, raise 2 exponent den)

/-- The exponent at which `num / den` has a significand of 53 bits, or the least exponent. -/
def quantum (num den : Nat) : Int :=
  let rough : Int := max (-1074) ((num.log2 : Int) - den.log2 - 53)
  let (n, d) := unscale num den rough
  if d * bound ≤ n then rough + 1 else rough

/-- A significand and exponent as a number; a significand rounded up to the bound moves to the next
exponent, and `none` says that the number is too large. -/
def assemble (negative : Bool) (significand : Nat) (exponent : Int) : Option Binary64 :=
  if h : Canonical significand exponent then some ⟨negative, significand, exponent, h⟩
  else if significand = bound then
    if h : Canonical halfBound (exponent + 1) then some ⟨negative, halfBound, exponent + 1, h⟩
    else none
  else none

/-- The number nearest to `num / den`; a half goes to the even significand. There is none when the
quotient is too large. -/
def ofRatio (negative : Bool) (num den : Nat) : Option Binary64 :=
  if num = 0 then some (zero negative)
  else
    let q := quantum num den
    let (n, d) := unscale num den q
    assemble negative (roundQuotient n d) q

/-- The number nearest to `digits * 10 ^ exponent`. Exponents far outside the format's range are
decided without computing the power. -/
def ofDecimal (negative : Bool) (digits : Nat) (exponent : Int) : Option Binary64 :=
  if digits = 0 then some (zero negative)
  else if 400 < exponent then none
  else if exponent + (digits.log2 / 3 : Nat) + 2 < -400 then some (zero negative)
  else ofRatio negative (raise 10 exponent digits) (raise 10 (-exponent) 1)

/-- The product with `10 ^ power` after rounding that power to a number of the format; for a
negative `power` the quotient by `10 ^ (-power)`, rounded likewise. Powers run from -308 to 308. -/
def scale (x : Binary64) (power : Int) : Option Binary64 :=
  match ofDecimal false 1 power.natAbs with
  | none => none
  | some ten =>
    let (n, d) := x.magnitude
    let (tn, td) := ten.magnitude
    if 0 ≤ power then ofRatio x.negative (n * tn) (d * td) else ofRatio x.negative (n * td) (d * tn)

/-- Whether the number is one of the two zeros. -/
def isZero (x : Binary64) : Bool :=
  x.significand == 0

/-- Equality of the represented values: the two zeros are equal. -/
def sameValue (x y : Binary64) : Bool :=
  x == y || (x.isZero && y.isZero)

end Binary64

end DesignSystem
