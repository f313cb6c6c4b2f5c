import PageBuilder.Json.Value
import PageBuilder.Text.Characters

/-!
# What can be wrong with a JSON text

Reading works on the characters still unread, so a `Fault` names its place by how many bytes of the
text come after it. `Fault.locate` turns that into the line and column of an `Error`: lines count
from 1, columns count the bytes since the line began.
-/

namespace PageBuilder.Json

/-- The reasons for which a text is refused. -/
inductive Cause where
  | endInValue
  | endInList
  | endInObject
  | endInString
  | expectedColon
  | expectedListCommaOrEnd
  | expectedObjectCommaOrEnd
  | expectedWord
  | expectedValue
  | invalidEscape
  | invalidNumber
  | numberOutOfRange
  | controlCharacter
  | keyMustBeString
  | loneSurrogate
  | endOfHexEscape
  | trailingComma
  | trailingCharacters
  | tooDeep
  /-- A list was asked for and another value found. -/
  | notAList (found : Json)

/-- A value that stands where a list was asked for. -/
def foundPhrase : Json → String
  | null => "null"
  | bool b => "boolean `" ++ (if b then "true" else "false") ++ "`"
  | number n =>
    match n with
    | .integer _ => "integer `" ++ n.text ++ "`"
    | .float _ => "floating point `" ++ n.text ++ "`"
  | string s => "string " ++ Text.quoted s
  | array _ => "sequence"
  | object _ => "map"

/-- The wording of a cause. -/
def Cause.message : Cause → String
  | endInValue => "EOF while parsing a value"
  | endInList => "EOF while parsing a list"
  | endInObject => "EOF while parsing an object"
  | endInString => "EOF while parsing a string"
  | expectedColon => "expected `:`"
  | expectedListCommaOrEnd => "expected `,` or `]`"
  | expectedObjectCommaOrEnd => "expected `,` or `\x7d`"
  | expectedWord => "expected ident"
  | expectedValue => "expected value"
  | invalidEscape => "invalid escape"
  | invalidNumber => "invalid number"
  | numberOutOfRange => "number out of range"
  | controlCharacter => "control character (\\u0000-\\u001F) found while parsing a string"
  | keyMustBeString => "key must be a string"
  | loneSurrogate => "lone leading surrogate in hex escape"
  | endOfHexEscape => "unexpected end of hex escape"
  | trailingComma => "trailing comma"
  | trailingCharacters => "trailing characters"
  | tooDeep => "recursion limit exceeded"
  | notAList found => "invalid type: " ++ foundPhrase found ++ ", expected a sequence"

/-- How many bytes characters take up. -/
def byteLength (cs : List Char) : Nat := (String.ofList cs).utf8ByteSize

/-- A cause and the number of bytes that come after the place it names. -/
structure Fault where
  cause : Cause
  unread : Nat

namespace Fault

/-- A fault noticed in front of the unread characters. -/
def here (cause : Cause) (cs : List Char) : Fault := ⟨cause, byteLength cs⟩

/-- A fault that names the next unread byte, if there is one. -/
def next (cause : Cause) (cs : List Char) : Fault := ⟨cause, byteLength cs - 1⟩

end Fault

/-- A place in a text. -/
structure Position where
  line : Nat
  column : Nat
deriving DecidableEq, Repr

namespace Position

/-- The beginning of a text. -/
def start : Position := ⟨1, 0⟩

/-- The place that lies a number of bytes further on, or at the end of the text. -/
def advance (p : Position) (bytes : Nat) : List Char → Position
  | [] => p
  | c :: rest =>
    if bytes = 0 then p
    else if c = '\n' then advance ⟨p.line + 1, 0⟩ (bytes - 1) rest
    else
      let width := min c.utf8Size bytes
      advance ⟨p.line, p.column + width⟩ (bytes - width) rest

end Position

/-- Why and where a text was refused. -/
structure Error where
  cause : Cause
  position : Position

/-- The wording of an error. -/
def Error.message (e : Error) : String :=
  e.cause.message ++ " at line " ++ toString e.position.line ++ " column "
    ++ toString e.position.column

/-- The error that a fault is in a given text. -/
def Fault.locate (text : List Char) (f : Fault) : Error :=
  ⟨f.cause, Position.start.advance (byteLength text - f.unread) text⟩

end PageBuilder.Json
