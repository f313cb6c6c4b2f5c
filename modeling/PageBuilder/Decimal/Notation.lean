import PageBuilder.Decimal.Shortest

/-!
# Decimal notation

A decimal is written by the digits of its coefficient, without trailing zeros, and the power of ten
of its first digit. A `Notation` says which powers are written plainly and how the others are
marked.
-/

namespace PageBuilder.Decimal

/-- Choices that a format makes when it writes a number. -/
structure Notation where
  /-- The least power of ten of a first digit that is written plainly. -/
  plainFrom : Int
  /-- The least power above that which is not. -/
  plainBelow : Int
  /-- What a plain whole number ends in. -/
  wholeEnding : String
  /-- What stands before a power that is not negative. -/
  plus : String

/-- The decimal digits of a number without the zeros at its end; zero keeps one digit. -/
def significantDigits (n : Nat) : List Char :=
  match ((Nat.toDigits 10 n).reverse.dropWhile (· == '0')).reverse with
  | [] => ['0']
  | ds => ds

/-- The power of ten of a decimal's first digit; zero has power zero. -/
def leadingPower (d : Decimal) : Int :=
  if d.coefficient = 0 then 0 else d.exponent + (Nat.toDigits 10 d.coefficient).length - 1

namespace Notation

/-- Digits with a point after the first few, filled up with zeros where digits are missing. -/
def plain (style : Notation) (digits : List Char) (power : Int) : String :=
  if power < 0 then
    "0." ++ String.ofList (List.replicate (-power - 1).toNat '0' ++ digits)
  else
    let whole := power.toNat + 1
    if digits.length ≤ whole then
      String.ofList (digits ++ List.replicate (whole - digits.length) '0') ++ style.wholeEnding
    else
      String.ofList (digits.take whole) ++ "." ++ String.ofList (digits.drop whole)

/-- One digit, a point if more follow, and the power of ten. -/
def scientific (style : Notation) (digits : List Char) (power : Int) : String :=
  let rest := digits.drop 1
  String.ofList (digits.take 1) ++ (if rest.isEmpty then "" else "." ++ String.ofList rest) ++ "e"
    ++ (if power < 0 then "-" else style.plus) ++ toString power.natAbs

/-- A decimal as text. -/
def text (style : Notation) (d : Decimal) : String :=
  let digits := significantDigits d.coefficient
  let power := d.leadingPower
  if style.plainFrom ≤ power && power < style.plainBelow then style.plain digits power
  else style.scientific digits power

end Notation

end PageBuilder.Decimal
