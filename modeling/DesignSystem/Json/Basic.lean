import DesignSystem.Decimal.Layout
import DesignSystem.Keyed
/-!
# Documents

A `Json` value is a document of plain data. Objects keep their entries as a list: documents that
are read have them in key order, each key once, while documents that are only written may list
them in an order of their own.
-/

namespace DesignSystem

namespace Json

/-- The integers a document keeps exactly: from `-2 ^ 63` to `2 ^ 64 - 1`. -/
def InWordRange (i : Int) : Prop :=
  -9223372036854775808 ≤ i ∧ i ≤ 18446744073709551615

instance (i : Int) : Decidable (InWordRange i) :=
  inferInstanceAs (Decidable (_ ∧ _))

/-- A number is an integer of the word range or a floating-point number. The two never coincide:
`1` and `1.0` are different documents. -/
inductive Number where
  | int (value : Int) (inRange : InWordRange value)
  | float (value : Binary64)
  deriving DecidableEq

end Json

/-- A document. -/
inductive Json where
  | null
  | bool (value : Bool)
  | number (value : Json.Number)
  | string (value : String)
  | array (items : List Json)
  | object (entries : List (String × Json))

namespace Json

instance : Inhabited Json := ⟨null⟩

/-! ### Equality is decidable -/

mutual

/-- Decides equality of documents. -/
protected def decEq : (a b : Json) → Decidable (a = b)
  | .null, b => match b with
    | .null => .isTrue rfl
    | .bool _ | .number _ | .string _ | .array _ | .object _ => .isFalse nofun
  | .bool x, b => match b with
    | .bool y => decidable_of_iff (x = y) (by simp)
    | .null | .number _ | .string _ | .array _ | .object _ => .isFalse nofun
  | .number x, b => match b with
    | .number y => decidable_of_iff (x = y) (by simp)
    | .null | .bool _ | .string _ | .array _ | .object _ => .isFalse nofun
  | .string x, b => match b with
    | .string y => decidable_of_iff (x = y) (by simp)
    | .null | .bool _ | .number _ | .array _ | .object _ => .isFalse nofun
  | .array xs, b => match b with
    | .array ys => @decidable_of_iff _ (xs = ys) (by simp) (Json.decEqItems xs ys)
    | .null | .bool _ | .number _ | .string _ | .object _ => .isFalse nofun
  | .object xs, b => match b with
    | .object ys => @decidable_of_iff _ (xs = ys) (by simp) (Json.decEqEntries xs ys)
    | .null | .bool _ | .number _ | .string _ | .array _ => .isFalse nofun

/-- Decides equality of the items of arrays. -/
protected def decEqItems : (xs ys : List Json) → Decidable (xs = ys)
  | [], [] => .isTrue rfl
  | [], _ :: _ | _ :: _, [] => .isFalse nofun
  | x :: xs, y :: ys =>
    @decidable_of_iff _ (x = y ∧ xs = ys) (by simp)
      (@instDecidableAnd _ _ (Json.decEq x y) (Json.decEqItems xs ys))

/-- Decides equality of the entries of objects. -/
protected def decEqEntries : (xs ys : List (String × Json)) → Decidable (xs = ys)
  | [], [] => .isTrue rfl
  | [], _ :: _ | _ :: _, [] => .isFalse nofun
  | (k, x) :: xs, (l, y) :: ys =>
    @decidable_of_iff _ (k = l ∧ x = y ∧ xs = ys) (by simp [and_assoc])
      (@instDecidableAnd _ _ _ (@instDecidableAnd _ _ (Json.decEq x y) (Json.decEqEntries xs ys)))

end

instance : DecidableEq Json := Json.decEq

/-- A natural number as a document; past the word range as a floating-point number, and as null
past the range of those. -/
def ofNat (n : Nat) : Json :=
  if h : InWordRange n then .number (.int n h)
  else match Binary64.ofDecimal false n 0 with
    | some x => .number (.float x)
    | none => .null

/-- The text of a string document. -/
def asString? : Json → Option String
  | .string s => some s
  | _ => none

/-- The entry of an object under `key`. -/
def field? (j : Json) (key : String) : Option Json :=
  match j with
  | .object entries => Keyed.get? entries key
  | _ => none

/-- What kind of document it is, in words. -/
def describe : Json → String
  | .null => "null"
  | .bool _ => "a boolean"
  | .number _ => "a number"
  | .string _ => "a string"
  | .array _ => "an array"
  | .object _ => "an object"

end Json

end DesignSystem
