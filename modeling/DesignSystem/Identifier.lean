/-!
# Identifiers

An identifier is made from sixteen random bytes. It is written as 32 small hexadecimal digits in
five groups; two of the digits are fixed in whole or in part and say that the others are random.
-/

namespace DesignSystem.Identifier

/-- The two hexadecimal digits of a byte. -/
def hexDigits (byte : Nat) : List Char :=
  [Nat.digitChar (byte / 16 % 16), Nat.digitChar (byte % 16)]

/-- The bytes with the mark of random identifiers in the seventh and the ninth. -/
def marked (bytes : List Nat) : List Nat :=
  (bytes.modify 6 fun b => 0x40 + b % 0x10).modify 8 fun b => 0x80 + b % 0x40

/-- The numbers of bytes in the groups. -/
def groups : List Nat :=
  [4, 2, 2, 2, 6]

/-- A list in consecutive pieces of the given lengths. -/
def pieces {α : Type} : List Nat → List α → List (List α)
  | [], _ => []
  | n :: rest, l => l.take n :: pieces rest (l.drop n)

/-- The identifier of random bytes. -/
def ofBytes (bytes : List Nat) : String :=
  String.ofList (['-'].intercalate ((pieces groups (marked bytes)).map (·.flatMap hexDigits)))

end DesignSystem.Identifier
