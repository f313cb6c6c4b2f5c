import PageBuilder.Json.Reader

/-!
# Strings

A string runs up to the next quote that no backslash precedes. A character outside the first plane
may be written as two escapes, a leading and a trailing surrogate; neither stands alone.
-/

namespace PageBuilder.Json

/-- The value of a hexadecimal digit of either case. -/
def hexDigit? (c : Char) : Option Nat :=
  if c.isDigit then some (c.toNat - '0'.toNat)
  else if 'a' ≤ c ∧ c ≤ 'f' then some (c.toNat - 'a'.toNat + 10)
  else if 'A' ≤ c ∧ c ≤ 'F' then some (c.toNat - 'A'.toNat + 10)
  else none

/-- The four hexadecimal digits of an escape. If they are not such digits, the fault comes after the
four bytes. -/
def hexEscape (cs : List Char) : Reading Nat :=
  if byteLength cs < 4 then .error (.here .endInString [])
  else
    match cs with
    | a :: b :: c :: d :: rest =>
      match hexDigit? a, hexDigit? b, hexDigit? c, hexDigit? d with
      | some a, some b, some c, some d => .ok (((a * 16 + b) * 16 + c) * 16 + d, rest)
      | _, _, _, _ => .error ⟨.invalidEscape, byteLength cs - 4⟩
    | _ => .error ⟨.invalidEscape, byteLength cs - 4⟩

/-- Whether a number is a leading surrogate. -/
def isLeading (n : Nat) : Bool := 0xD800 ≤ n && n ≤ 0xDBFF

/-- Whether a number is a trailing surrogate. -/
def isTrailing (n : Nat) : Bool := 0xDC00 ≤ n && n ≤ 0xDFFF

/-- The character that a pair of surrogates stands for. -/
def ofSurrogates (leading trailing : Nat) : Char :=
  Char.ofNat (0x10000 + (leading - 0xD800) * 0x400 + (trailing - 0xDC00))

/-- The escape that has to follow a leading surrogate. -/
def trailingEscape (leading : Nat) (cs : List Char) : Reading Char :=
  match cs with
  | [] => .error (.here .endInString [])
  | '\\' :: [] => .error (.here .endInString [])
  | '\\' :: 'u' :: rest =>
    match hexEscape rest with
    | .error f => .error f
    | .ok (n, rest) =>
      if isTrailing n then .ok (ofSurrogates leading n, rest)
      else .error (.here .loneSurrogate rest)
  | '\\' :: rest => .error (.next .endOfHexEscape rest)
  | rest => .error (.next .endOfHexEscape rest)

/-- The characters that an escape names by one letter. -/
def letterEscape? : Char → Option Char
  | '"' => some '"'
  | '\\' => some '\\'
  | '/' => some '/'
  | 'b' => some '\x08'
  | 'f' => some '\x0c'
  | 'n' => some '\n'
  | 'r' => some '\r'
  | 't' => some '\t'
  | _ => none

/-- The character that an escape by number begins. -/
def numberEscape (cs : List Char) : Reading Char :=
  match hexEscape cs with
  | .error f => .error f
  | .ok (n, rest) =>
    if isTrailing n then .error (.here .loneSurrogate rest)
    else if isLeading n then trailingEscape n rest
    else .ok (Char.ofNat n, rest)

/-- An escape after its backslash. -/
def escape (cs : List Char) : Reading Char :=
  match cs with
  | [] => .error (.here .endInString [])
  | c :: rest =>
    match letterEscape? c with
    | some d => .ok (d, rest)
    | none => if c = 'u' then numberEscape rest else .error (.next .invalidEscape (c :: rest))

theorem leaves_hexEscape (cs : List Char) : (hexEscape cs).Leaves cs.length := by
  fun_cases hexEscape cs with
  | case1 | case3 | case4 => exact .error _ _
  | case2 => exact .ok _ (Nat.le_add_right _ 4)

theorem leaves_trailingEscape (leading : Nat) (cs : List Char) :
    (trailingEscape leading cs).Leaves cs.length := by
  fun_cases trailingEscape leading cs with
  | case1 | case2 | case3 | case5 | case6 | case7 => exact .error _ _
  | case4 digits n rest hread =>
    exact .ok (ofSurrogates leading n)
      (Nat.le_trans (leaves_hexEscape digits hread) (Nat.le_add_right _ 2))

theorem leaves_numberEscape (cs : List Char) : (numberEscape cs).Leaves cs.length := by
  fun_cases numberEscape cs with
  | case1 | case2 => exact .error _ _
  | case3 n rest hread => exact (leaves_trailingEscape n rest).mono (leaves_hexEscape cs hread)
  | case4 n rest hread => exact .ok (Char.ofNat n) (leaves_hexEscape cs hread)

theorem leaves_escape (cs : List Char) : (escape cs).Leaves cs.length := by
  fun_cases escape cs with
  | case1 | case4 => exact .error _ _
  | case2 c rest d => exact .ok d (Nat.le_succ _)
  | case3 rest => exact (leaves_numberEscape rest).mono (Nat.le_succ _)

/-- The rest of a string, given its characters so far in reverse. -/
def stringRest (read : List Char) (cs : List Char) : Reading String :=
  match cs with
  | [] => .error (.here .endInString [])
  | '"' :: rest => .ok (String.ofList read.reverse, rest)
  | '\\' :: rest =>
    match hescape : escape rest with
    | .error f => .error f
    | .ok (c, after) =>
      have : after.length ≤ rest.length := leaves_escape rest hescape
      stringRest (c :: read) after
  | c :: rest =>
    if c < ' ' then .error (.next .controlCharacter (c :: rest)) else stringRest (c :: read) rest
termination_by cs.length

theorem leaves_stringRest (read cs : List Char) : (stringRest read cs).Leaves cs.length := by
  fun_induction stringRest read cs with
  | case1 | case3 | case5 => exact .error _ _
  | case2 read rest => exact .ok (String.ofList read.reverse) (Nat.le_succ _)
  | case4 read rest c after hescape hshorter ih => exact ih.mono (Nat.le_succ_of_le hshorter)
  | case6 read c rest _ _ _ ih => exact ih.mono (Nat.le_succ _)

end PageBuilder.Json
