import PageBuilder.Decimal.Notation

/-!
# JSON values

A number is an integer of at most 64 bits or else a floating-point number. The fields of an object
are kept sorted by key, and each key stands once: `Json.setField` replaces or inserts.
-/

namespace PageBuilder

/-- A JSON number: integers from `-2 ^ 63` up to `2 ^ 64 - 1` are exact, all others are not. -/
inductive Json.Number where
  | integer (n : Int)
  | float (x : Float)

/-- A JSON value. -/
inductive Json where
  | null
  | bool (b : Bool)
  | number (n : Json.Number)
  | string (s : String)
  | array (items : List Json)
  | object (fields : List (String × Json))

namespace Json

/-- The fields of an object. -/
abbrev Fields := List (String × Json)

/-- Sets a field: its value is replaced if the key is there, else it enters at its place. -/
def setField (key : String) (value : Json) : Fields → Fields
  | [] => [(key, value)]
  | field :: rest =>
    if key < field.1 then (key, value) :: field :: rest
    else if key = field.1 then (key, value) :: rest
    else field :: setField key value rest

/-- The value of a field. -/
def field? (key : String) (fields : Fields) : Option Json := fields.lookup key

/-- The fields of an object that is read from left to right: of equal keys the last one counts. -/
def fieldsOfList (entries : List (String × Json)) : Fields :=
  entries.foldl (fun fields e => setField e.1 e.2 fields) []

/-! ## Kinds of values -/

/-- The kinds of JSON values. -/
inductive Kind where
  | null
  | boolean
  | number
  | string
  | array
  | object
deriving DecidableEq, Repr

/-- The kind of a value. -/
def kind : Json → Kind
  | null => .null
  | bool _ => .boolean
  | number _ => .number
  | string _ => .string
  | array _ => .array
  | object _ => .object

/-- What messages call a value of some kind. -/
def Kind.phrase : Kind → String
  | null => "null"
  | boolean => "a boolean"
  | number => "a number"
  | string => "a string"
  | array => "an array"
  | object => "an object"

/-! ## Numbers as text -/

/-- Floating-point numbers are written plainly from `10 ^ -5` up to below `10 ^ 16`, then always
with a fraction, and otherwise with a signed power of ten. -/
def Number.style : Decimal.Notation where
  plainFrom := -5
  plainBelow := 16
  wholeEnding := ".0"
  plus := "+"

/-- A number as text: an integer by its digits, any other by the fewest that read back. -/
def Number.text : Number → String
  | integer n => toString n
  | float x =>
    let digits :=
      if x == 0 then ⟨0, 0⟩ else (Binary.ofFloat x).shortest
    (if x.toBits >>> 63 = 1 then "-" else "") ++ style.text digits

end Json

end PageBuilder
