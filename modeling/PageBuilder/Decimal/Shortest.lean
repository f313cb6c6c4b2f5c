/-!
# The shortest decimal that reads back

A finite floating-point number is `mantissa * 2 ^ exponent`. The numbers that round to it fill an
interval around it, which reaches half-way to its neighbours and holds its ends if the mantissa is
even. `Binary.shortest` is the decimal with the fewest digits in that interval, and of those the one
nearest to the number.

All comparisons are made in natural numbers. A grid of decimals with a fixed number of digits meets
the interval only if one of the two grid points next to the number does, so for each number of
digits only these two are tried.
-/

namespace PageBuilder

/-- The number `coefficient * 10 ^ exponent`. -/
structure Decimal where
  coefficient : Nat
  exponent : Int
deriving DecidableEq, Repr

/-- The positive number `mantissa * 2 ^ exponent` of a floating-point format. -/
structure Binary where
  mantissa : Nat
  exponent : Int
  /-- Whether the next smaller number of the format is half as far away as the next larger. -/
  narrowBelow : Bool
deriving DecidableEq, Repr

namespace Binary

/-- The magnitude of a finite floating-point number. -/
def ofFloat (x : Float) : Binary :=
  let bits := x.toBits.toNat
  let fraction := bits % Nat.pow 2 52
  let scale := bits / Nat.pow 2 52 % Nat.pow 2 11
  if scale = 0 then ⟨fraction, -1074, false⟩
  else ⟨fraction + Nat.pow 2 52, Int.ofNat scale - 1075, fraction == 0 && 1 < scale⟩

/-! Quarters of the unit `2 ^ exponent` measure the number and its interval; `quarters b k e` and
`steps b n e` put `k` such quarters and `n` times `10 ^ e` on one scale of natural numbers. -/

/-- `k * 2 ^ (exponent - 2)`, on the scale for steps of `10 ^ e`. -/
def quarters (b : Binary) (k : Nat) (e : Int) : Nat :=
  k * Nat.pow 2 (b.exponent - 2).toNat * Nat.pow 10 (-e).toNat

/-- `n * 10 ^ e`, on the same scale. -/
def steps (b : Binary) (n : Nat) (e : Int) : Nat :=
  n * Nat.pow 10 e.toNat * Nat.pow 2 (2 - b.exponent).toNat

/-- Whether the decimal `n * 10 ^ e` rounds to the number. -/
def holds (b : Binary) (e : Int) (n : Nat) : Bool :=
  let low := b.quarters (4 * b.mantissa - if b.narrowBelow then 1 else 2) e
  let high := b.quarters (4 * b.mantissa + 2) e
  let here := b.steps n e
  if b.mantissa % 2 = 0 then low ≤ here && here ≤ high else low < here && here < high

/-- The largest multiple of `10 ^ e` up to the number. -/
def below (b : Binary) (e : Int) : Nat := b.quarters (4 * b.mantissa) e / b.steps 1 e

/-- The multiple of `10 ^ e` that rounds to the number and is nearest to it, of two equally near the
even one. -/
def onGrid? (b : Binary) (e : Int) : Option Nat :=
  let n := b.below e
  match b.holds e n, b.holds e (n + 1) with
  | false, false => none
  | true, false => some n
  | false, true => some (n + 1)
  | true, true =>
    let number := b.quarters (4 * b.mantissa) e
    let down := number - b.steps n e
    let up := b.steps (n + 1) e - number
    some (if down < up || (down == up && n % 2 == 0) then n else n + 1)

/-- The power of ten of the number's first digit. -/
def leadingPower (b : Binary) : Int :=
  let num := b.mantissa * Nat.pow 2 b.exponent.toNat
  let den := Nat.pow 2 (-b.exponent).toNat
  if den ≤ num then ((Nat.toDigits 10 (num / den)).length : Int) - 1
  else -((Nat.toDigits 10 ((den - 1) / num)).length : Int)

/-- The first grid, from `digits` digits on, that has a point rounding to the number; after a number
of further tries, the point below the number. -/
def search (b : Binary) (leading : Int) (digits : Nat) : Nat → Decimal
  | 0 => ⟨b.below (leading + 1 - digits), leading + 1 - digits⟩
  | tries + 1 =>
    match b.onGrid? (leading + 1 - digits) with
    | some n => ⟨n, leading + 1 - digits⟩
    | none => b.search leading (digits + 1) tries

/-- The shortest decimal that rounds to the number. Seventeen digits always suffice. -/
def shortest (b : Binary) : Decimal := b.search b.leadingPower 1 17

end Binary

end PageBuilder
