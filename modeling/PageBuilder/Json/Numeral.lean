import PageBuilder.Json.Reader

/-!
# Numerals

A number is read in one pass. Its digits are gathered into a 64-bit coefficient until the next one
would not fit: from there on digits of the whole part only raise the power of ten, and digits of the
fraction are dropped. A numeral without fraction and power of ten whose digits all fit is an
integer; any other is the coefficient times or divided by a power of ten, each step rounded to a
floating-point number.
-/

namespace PageBuilder.Json

/-- The largest coefficient. -/
def coefficientLimit : Nat := UInt64.size - 1

/-- The largest power of ten that is told from larger ones. -/
def powerLimit : Nat := UInt32.size / 2 - 1

/-- The value of a decimal digit. -/
def digit? (c : Char) : Option Nat := if c.isDigit then some (c.toNat - '0'.toNat) else none

/-- Whether a digit comes next. -/
def startsWithDigit : List Char → Bool
  | [] => false
  | c :: _ => c.isDigit

/-- Appends digits to a number while the result stays within a limit. Gives the number, how many
digits it took, and the characters from the first digit that no longer fits or other character. -/
def gather (limit n count : Nat) : List Char → Nat × Nat × List Char
  | [] => (n, count, [])
  | c :: rest =>
    match digit? c with
    | none => (n, count, c :: rest)
    | some d =>
      if limit < 10 * n + d then (n, count, c :: rest)
      else gather limit (10 * n + d) (count + 1) rest

/-- The characters after a row of digits. -/
def skipDigits (cs : List Char) : List Char := cs.dropWhile Char.isDigit

/-- `10 ^ n`, rounded to a floating-point number. -/
def powerOfTen (n : Nat) : Float := Float.ofScientific 1 false n

/-- The largest power of ten that is a finite floating-point number. -/
def largestPower : Nat := 308

/-- `x / 10 ^ n`, the division made in several steps if the power is too large. -/
def scaleDown (x : Float) (n : Nat) : Float :=
  if n ≤ largestPower then x / powerOfTen n
  else if x == 0 then x
  else scaleDown (x / powerOfTen largestPower) (n - largestPower)
termination_by n
decreasing_by simp only [largestPower] at *; omega

/-- `coefficient * 10 ^ power`; nothing if that is too large. -/
def scale? (coefficient : Nat) (power : Int) : Option Float :=
  let x := Float.ofNat coefficient
  if power < 0 then some (scaleDown x power.natAbs)
  else if power.natAbs ≤ largestPower then
    let y := x * powerOfTen power.natAbs
    if y.isInf then none else some y
  else if x == 0 then some x
  else none

/-- A number with its sign put in front. -/
def signed (negative : Bool) (x : Float) : Number := .float (if negative then -x else x)

/-- The number `coefficient * 10 ^ power` in front of the unread characters. -/
def scaled (negative : Bool) (coefficient : Nat) (power : Int) (cs : List Char) : Reading Number :=
  match scale? coefficient power with
  | some x => .ok (signed negative x, cs)
  | none => .error (.here .numberOutOfRange cs)

/-- Whether a power of ten is negative, and the characters after its sign. -/
def powerSign : List Char → Bool × List Char
  | '+' :: rest => (false, rest)
  | '-' :: rest => (true, rest)
  | cs => (false, cs)

/-- The power of ten after its mark, for a coefficient whose last digit has a given power. -/
def numeralPower (negative : Bool) (coefficient : Nat) (power : Int) (cs : List Char) :
    Reading Number :=
  let (down, cs) := powerSign cs
  match gather powerLimit 0 0 cs with
  | (_, 0, []) => .error (.here .endInValue [])
  | (_, 0, rest) => .error (.next .invalidNumber rest)
  | (n, _, rest) =>
    if startsWithDigit rest then
      if coefficient ≠ 0 ∧ !down then .error (.here .numberOutOfRange (rest.drop 1))
      else .ok (signed negative 0, skipDigits rest)
    else scaled negative coefficient (if down then power - n else power + n) rest

/-- The fraction after its point, for a coefficient whose last digit has a given power. -/
def numeralFraction (negative : Bool) (coefficient : Nat) (power : Int) (cs : List Char) :
    Reading Number :=
  let (n, count, rest) := gather coefficientLimit coefficient 0 cs
  if count = 0 ∧ !startsWithDigit rest then
    .error (.next (if rest.isEmpty then .endInValue else .invalidNumber) rest)
  else
    match skipDigits rest with
    | 'e' :: more | 'E' :: more => numeralPower negative n (power - count) more
    | more => scaled negative n (power - count) more

/-- What follows the digits of the whole part: a fraction, a power of ten, or else something for
`finish`. -/
def numeralEnding (negative : Bool) (coefficient : Nat) (power : Int)
    (finish : List Char → Reading Number) (cs : List Char) : Reading Number :=
  match cs with
  | '.' :: rest => numeralFraction negative coefficient power rest
  | 'e' :: rest | 'E' :: rest => numeralPower negative coefficient power rest
  | rest => finish rest

/-- What follows the whole part of a numeral whose coefficient could not hold all its digits. -/
def numeralLong (negative : Bool) (coefficient : Nat) (cs : List Char) : Reading Number :=
  let power := (cs.takeWhile Char.isDigit).length
  numeralEnding negative coefficient power (scaled negative coefficient power) (skipDigits cs)

/-- An integer. Minus zero and what has no 64-bit form become floating-point numbers. -/
def wholeNumber (negative : Bool) (n : Nat) : Number :=
  if !negative then .integer n
  else if n = 0 ∨ UInt64.size / 2 < n then signed true (Float.ofNat n)
  else .integer (-n)

/-- What follows the whole part of a numeral. -/
def numeralRest (negative : Bool) (coefficient : Nat) (cs : List Char) : Reading Number :=
  numeralEnding negative coefficient 0 (fun rest => .ok (wholeNumber negative coefficient, rest)) cs

/-- A numeral after its sign. A whole part that begins with zero has no other digit. -/
def numeral (negative : Bool) (cs : List Char) : Reading Number :=
  match cs with
  | [] => .error (.here .endInValue [])
  | '0' :: rest =>
    if startsWithDigit rest then .error (.next .invalidNumber rest)
    else numeralRest negative 0 rest
  | cs =>
    if startsWithDigit cs then
      let (n, _, rest) := gather coefficientLimit 0 0 cs
      if startsWithDigit rest then numeralLong negative n rest else numeralRest negative n rest
    else .error (.next .invalidNumber cs)

/-! ## Every part of a numeral leaves a shorter text -/

section

variable {limit n count coefficient : Nat} {negative down : Bool} {power : Int}
  {cs rest : List Char} {c : Char}

theorem length_le_of_gather {n' count' : Nat} (h : gather limit n count cs = (n', count', rest)) :
    rest.length ≤ cs.length := by
  fun_induction gather limit n count cs with
  | case1 =>
    cases h
    exact Nat.le_refl _
  | case2 | case3 =>
    cases h
    exact Nat.le_refl _
  | case4 n count c cs d hdigit hfits ih => exact Nat.le_succ_of_le (ih h)

/-- Every digit fits into an empty coefficient. -/
theorem length_lt_of_gather (hdigit : startsWithDigit cs = true)
    (h : gather coefficientLimit 0 0 cs = (n, count, rest)) : rest.length < cs.length := by
  cases cs with
  | nil => cases hdigit
  | cons c cs =>
    replace hdigit : c.isDigit = true := hdigit
    have hle : c.toNat ≤ 57 := (Char.isDigit_iff_toNat.1 hdigit).2
    have hfits : ¬ coefficientLimit < 10 * 0 + (c.toNat - '0'.toNat) := by
      simp only [coefficientLimit, UInt64.size]
      omega
    simp only [gather, digit?, hdigit, if_true, hfits, if_false] at h
    exact Nat.lt_succ_of_le (length_le_of_gather h)

theorem length_skipDigits_le (cs : List Char) : (skipDigits cs).length ≤ cs.length :=
  (List.dropWhile_suffix _).length_le

theorem length_lt_of_skipDigits (h : skipDigits cs = c :: rest) : rest.length < cs.length := by
  have hskip := length_skipDigits_le cs
  rwa [h, List.length_cons] at hskip

theorem length_le_of_powerSign : powerSign cs = (down, rest) → rest.length ≤ cs.length := by
  fun_cases powerSign cs with
  | case1 | case2 =>
    rintro ⟨⟩
    exact Nat.le_succ _
  | case3 =>
    rintro ⟨⟩
    exact Nat.le_refl _

theorem leaves_scaled (negative : Bool) (coefficient : Nat) (power : Int) (cs : List Char) :
    (scaled negative coefficient power cs).Leaves cs.length := by
  fun_cases scaled negative coefficient power cs with
  | case1 x => exact .ok (signed negative x) (Nat.le_refl _)
  | case2 => exact .error _ _

theorem leaves_numeralPower (negative : Bool) (coefficient : Nat) (power : Int) (cs : List Char) :
    (numeralPower negative coefficient power cs).Leaves cs.length := by
  fun_cases numeralPower negative coefficient power cs with
  | case1 | case2 | case3 => exact .error _ _
  | case4 down digits hsign n count rest _ _ hgather =>
    have hrest := Nat.le_trans (length_le_of_gather hgather) (length_le_of_powerSign hsign)
    exact .ok (signed negative 0) (Nat.le_trans (length_skipDigits_le rest) hrest)
  | case5 down digits hsign n count rest _ _ hgather =>
    have hrest := Nat.le_trans (length_le_of_gather hgather) (length_le_of_powerSign hsign)
    exact (leaves_scaled _ _ _ rest).mono hrest

theorem leaves_numeralFraction (negative : Bool) (coefficient : Nat) (power : Int)
    (cs : List Char) : (numeralFraction negative coefficient power cs).Leaves cs.length := by
  fun_cases numeralFraction negative coefficient power cs with
  | case1 => exact .error _ _
  | case2 n count rest hgather _ more hmore | case3 n count rest hgather _ more hmore =>
    have hle := Nat.le_trans (Nat.le_of_lt (length_lt_of_skipDigits hmore))
      (length_le_of_gather hgather)
    exact (leaves_numeralPower _ _ _ more).mono hle
  | case4 n count rest hgather =>
    have hle := Nat.le_trans (length_skipDigits_le rest) (length_le_of_gather hgather)
    exact (leaves_scaled _ _ _ _).mono hle

theorem leaves_numeralEnding {finish : List Char → Reading Number}
    (hfinish : ∀ cs, (finish cs).Leaves cs.length) (cs : List Char) :
    (numeralEnding negative coefficient power finish cs).Leaves cs.length := by
  fun_cases numeralEnding negative coefficient power finish cs with
  | case1 rest => exact (leaves_numeralFraction _ _ _ rest).mono (Nat.le_succ _)
  | case2 rest | case3 rest => exact (leaves_numeralPower _ _ _ rest).mono (Nat.le_succ _)
  | case4 => exact hfinish cs

theorem leaves_numeralLong (negative : Bool) (coefficient : Nat) (cs : List Char) :
    (numeralLong negative coefficient cs).Leaves cs.length :=
  (leaves_numeralEnding (leaves_scaled _ _ _) _).mono (length_skipDigits_le cs)

theorem leaves_numeralRest (negative : Bool) (coefficient : Nat) (cs : List Char) :
    (numeralRest negative coefficient cs).Leaves cs.length :=
  leaves_numeralEnding (fun _ => .ok (wholeNumber negative coefficient) (Nat.le_refl _)) cs

/-- A numeral has at least one character. -/
theorem length_numeral_lt {v : Number} :
    numeral negative cs = .ok (v, rest) → rest.length < cs.length := by
  fun_cases numeral negative cs with
  | case1 | case2 | case6 => exact nofun
  | case3 digits => exact fun h => Nat.lt_succ_of_le (leaves_numeralRest _ _ digits h)
  | case4 _ _ _ hdigit n count digits hgather =>
    exact fun h => Nat.lt_of_le_of_lt (leaves_numeralLong _ _ digits h)
      (length_lt_of_gather hdigit hgather)
  | case5 _ _ _ hdigit n count after hgather =>
    exact fun h => Nat.lt_of_le_of_lt (leaves_numeralRest _ _ after h)
      (length_lt_of_gather hdigit hgather)

end

end PageBuilder.Json
