import DesignSystem.Decimal.Shortest
/-!
# Writing a decimal

A decimal is written positionally, always with a fraction, when the power of ten of its leading
digit lies in a given range, and otherwise with an exponent. The exponent carries no leading zeros,
and a single digit stands without a point.
-/

namespace DesignSystem

/-- How a decimal is written: positionally if the power of ten of the leading digit is at least
`least` and below `bound`, and otherwise with an exponent, which has a plus sign on request. -/
structure DecimalLayout where
  least : Int
  bound : Int
  plus : Bool

namespace DecimalLayout

/-- The digits of a natural number in base ten. -/
def digitsOf (n : Nat) : List Char :=
  Nat.toDigits 10 n

/-- `count` zeros. -/
def zeros (count : Nat) : List Char :=
  List.replicate count '0'

/-- The positional form, with a fraction of at least one digit. -/
def positional (digits : List Char) (exponent : Int) : List Char :=
  if 0 ≤ exponent then digits ++ zeros exponent.toNat ++ ['.', '0']
  else
    let places := (-exponent).toNat
    if places < digits.length then
      digits.take (digits.length - places) ++ '.' :: digits.drop (digits.length - places)
    else '0' :: '.' :: (zeros (places - digits.length) ++ digits)

/-- The sign of an exponent. -/
def exponentSign (layout : DecimalLayout) (exponent : Int) : List Char :=
  if exponent < 0 then ['-'] else if layout.plus then ['+'] else []

/-- The form with an exponent, which is that of the leading digit. -/
def withExponent (layout : DecimalLayout) (digits : List Char) (leading : Int) : List Char :=
  let mantissa := match digits with
    | d :: d' :: rest => d :: '.' :: d' :: rest
    | _ => digits
  mantissa ++ 'e' :: (layout.exponentSign leading ++ digitsOf leading.natAbs)

/-- The text of a signed decimal. -/
def write (layout : DecimalLayout) (negative : Bool) (d : Decimal) : String :=
  let digits := digitsOf d.digits
  let leading : Int := d.exponent + digits.length - 1
  let body :=
    if d.digits = 0 then ['0', '.', '0']
    else if layout.least ≤ leading ∧ leading < layout.bound then positional digits d.exponent
    else layout.withExponent digits leading
  String.ofList (if negative then '-' :: body else body)

/-- The text of a floating-point number. -/
def writeBinary64 (layout : DecimalLayout) (x : Binary64) : String :=
  layout.write x.negative (Decimal.shortest x)

end DecimalLayout

end DesignSystem
