import DesignSystem.Json.Basic
/-!
# Reading numbers

A number without fraction and exponent is an integer if it lies in the word range and is not `-0`.
Every other number is a floating-point number. Its digits are gathered in one 64-bit word, digits
past the word's capacity only counting as powers of ten, and the word is scaled by a single power
of ten: both the word and the power are rounded before the last rounding, so a number with more
than fifteen digits need not be the nearest to its text.
-/

namespace DesignSystem.Json

/-- A number as written: sign, digits before the point, digits after it, and the exponent with
its sign. -/
structure NumberText where
  negative : Bool
  whole : List Nat
  fraction : Option (List Nat)
  exponent : Option (Bool × List Nat)

/-- The value of a decimal digit. -/
def digit? (c : Char) : Option Nat :=
  if '0' ≤ c ∧ c ≤ '9' then some (c.toNat - 48) else none

/-- The longest run of decimal digits in front. -/
def digitRun : List Char → List Nat × List Char
  | [] => ([], [])
  | c :: cs => match digit? c with
    | some d => ((d :: (digitRun cs).1), (digitRun cs).2)
    | none => ([], c :: cs)

/-- The exponent that makes up the whole of the text. -/
def exponentOf (cs : List Char) : Option (Bool × List Nat) :=
  let (negative, cs) := match cs with
    | '-' :: cs => (true, cs)
    | '+' :: cs => (false, cs)
    | cs => (false, cs)
  match digitRun cs with
  | (d :: ds, []) => some (negative, d :: ds)
  | _ => none

/-- What follows the digits before the point: a fraction, an exponent, or both. -/
def NumberText.tail (negative : Bool) (whole : List Nat) (cs : List Char) : Option NumberText :=
  match cs with
  | [] => some ⟨negative, whole, none, none⟩
  | '.' :: cs => match digitRun cs with
    | ([], _) => none
    | (ds, []) => some ⟨negative, whole, some ds, none⟩
    | (ds, c :: cs) =>
      if c = 'e' ∨ c = 'E' then
        (exponentOf cs).map fun e => ⟨negative, whole, some ds, some e⟩
      else none
  | c :: cs =>
    if c = 'e' ∨ c = 'E' then (exponentOf cs).map fun e => ⟨negative, whole, none, some e⟩ else none

/-- The number that makes up the whole of the text. A leading zero stands alone before the point. -/
def NumberText.ofChars (cs : List Char) : Option NumberText :=
  let (negative, cs) := match cs with
    | '-' :: cs => (true, cs)
    | cs => (false, cs)
  match digitRun cs with
  | ([], _) => none
  | (0 :: _ :: _, _) => none
  | (whole, rest) => NumberText.tail negative whole rest

/-- The largest value of a 64-bit word. -/
def maxWord : Nat :=
  18446744073709551615

/-- A word and a power of ten. -/
structure Gathered where
  word : Nat
  power : Int

/-- Digits before the point enter the word until one does not fit; that digit and all later ones
count as powers of ten. -/
def gatherWhole (word : Nat) : List Nat → Gathered
  | [] => ⟨word, 0⟩
  | d :: ds =>
    if word * 10 + d ≤ maxWord then gatherWhole (word * 10 + d) ds
    else ⟨word, (d :: ds).length⟩

/-- Digits after the point enter the word until one does not fit; the rest is dropped. -/
def gatherFraction (g : Gathered) : List Nat → Gathered
  | [] => g
  | d :: ds =>
    if g.word * 10 + d ≤ maxWord then gatherFraction ⟨g.word * 10 + d, g.power - 1⟩ ds else g

/-- The largest exponent that is read digit by digit. -/
def maxExponent : Nat :=
  2147483647

/-- The value of the exponent's digits, or `none` past `maxExponent`. -/
def gatherExponent (value : Nat) : List Nat → Option Nat
  | [] => some value
  | d :: ds => if value * 10 + d ≤ maxExponent then gatherExponent (value * 10 + d) ds else none

/-- `x * 10 ^ power`, in steps of at most `10 ^ 308`; `none` if it is too large. -/
def scaleBy (x : Binary64) (power : Int) : Option Binary64 :=
  if power.natAbs ≤ 308 then x.scale power
  else if x.isZero then some x
  else if 0 ≤ power then none
  else (x.scale (-308)).bind fun y => scaleBy y (power + 308)
termination_by (-power).toNat
decreasing_by omega

/-- The floating-point number of a text, `none` if it is too large. -/
def NumberText.float? (t : NumberText) : Option Binary64 :=
  let g := gatherFraction (gatherWhole 0 t.whole) (t.fraction.getD [])
  let magnitude := match t.exponent with
    | none => (Binary64.ofRatio false g.word 1).bind (scaleBy · g.power)
    | some (negative, ds) => match gatherExponent 0 ds with
      | none => if g.word ≠ 0 ∧ ¬negative then none else some (Binary64.zero false)
      | some e =>
        let power := if negative then g.power - (e : Int) else g.power + (e : Int)
        (Binary64.ofRatio false g.word 1).bind (scaleBy · power)
  magnitude.map fun x => x.withSign t.negative

/-- The integer of a text without fraction and exponent, if it is one of the word range. The text
`-0` is none. -/
def NumberText.int? (t : NumberText) : Option Number :=
  match t.fraction, t.exponent with
  | none, none =>
    let magnitude : Nat := t.whole.foldl (fun acc d => acc * 10 + d) 0
    let value : Int := if t.negative then -magnitude else magnitude
    if t.negative ∧ magnitude = 0 then none
    else if h : InWordRange value then some (.int value h) else none
  | _, _ => none

/-- The number of a text, `none` if it is too large. -/
def NumberText.number? (t : NumberText) : Option Number :=
  match t.int? with
  | some n => some n
  | none => t.float?.map .float

end DesignSystem.Json
