import PageBuilder.Json.Value
import PageBuilder.Text.Characters

/-!
# JSON as text

`Json.compact` writes a value without blanks, `Json.pretty` writes every item and field on a line of
its own, and `Json.outline` shows how a value is built, for messages.
-/

namespace PageBuilder.Json

/-! ## Strings -/

/-- A number below 256 as two hexadecimal digits. -/
def twoDigits (n : Nat) : String := String.ofList [Nat.digitChar (n / 16), Nat.digitChar (n % 16)]

/-- How a character is written in a string. -/
def stringForm (c : Char) : String :=
  match c with
  | '"' => "\\\""
  | '\\' => "\\\\"
  | '\x08' => "\\b"
  | '\x0c' => "\\f"
  | '\n' => "\\n"
  | '\r' => "\\r"
  | '\t' => "\\t"
  | c => if c < ' ' then "\\u00" ++ twoDigits c.toNat else String.singleton c

/-- A string between quotes. -/
def stringText (s : String) : String := "\"" ++ String.join (s.toList.map stringForm) ++ "\""

/-- A boolean by its word. -/
def boolText (b : Bool) : String := if b then "true" else "false"

/-! ## Values -/

mutual

/-- A value without blanks. -/
def compact : Json → String
  | null => "null"
  | bool b => boolText b
  | number n => n.text
  | string s => stringText s
  | array items => "[" ++ ",".intercalate (compactItems items) ++ "]"
  | object fields => "\x7b" ++ ",".intercalate (compactFields fields) ++ "\x7d"

/-- Items without blanks. -/
def compactItems : List Json → List String
  | [] => []
  | item :: rest => item.compact :: compactItems rest

/-- Fields without blanks. -/
def compactFields : List (String × Json) → List String
  | [] => []
  | (key, value) :: rest => (stringText key ++ ":" ++ value.compact) :: compactFields rest

end

/-- The beginning of a line at some depth. -/
def newLine (depth : Nat) : String := "\n" ++ String.join (List.replicate depth "  ")

/-- Parts between brackets, each on its own line; without parts the brackets stand together. -/
def spread (opening closing : String) (depth : Nat) (parts : List String) : String :=
  if parts.isEmpty then opening ++ closing
  else
    opening ++ newLine (depth + 1) ++ ("," ++ newLine (depth + 1)).intercalate parts
      ++ newLine depth ++ closing

mutual

/-- A value over several lines, its first on a line of some depth. -/
def prettyAt (depth : Nat) : Json → String
  | null => "null"
  | bool b => boolText b
  | number n => n.text
  | string s => stringText s
  | array items => spread "[" "]" depth (prettyItems (depth + 1) items)
  | object fields => spread "\x7b" "\x7d" depth (prettyFields (depth + 1) fields)

/-- Items over several lines. -/
def prettyItems (depth : Nat) : List Json → List String
  | [] => []
  | item :: rest => prettyAt depth item :: prettyItems depth rest

/-- Fields over several lines. -/
def prettyFields (depth : Nat) : List (String × Json) → List String
  | [] => []
  | (key, value) :: rest =>
    (stringText key ++ ": " ++ prettyAt depth value) :: prettyFields depth rest

end

/-- A value over several lines. -/
def pretty (j : Json) : String := prettyAt 0 j

mutual

/-- How a value is built. -/
def outline : Json → String
  | null => "Null"
  | bool b => "Bool(" ++ boolText b ++ ")"
  | number n => "Number(" ++ n.text ++ ")"
  | string s => "String(" ++ Text.quoted s ++ ")"
  | array items => "Array [" ++ ", ".intercalate (outlineItems items) ++ "]"
  | object fields => "Object \x7b" ++ ", ".intercalate (outlineFields fields) ++ "\x7d"

/-- How items are built. -/
def outlineItems : List Json → List String
  | [] => []
  | item :: rest => item.outline :: outlineItems rest

/-- How fields are built. -/
def outlineFields : List (String × Json) → List String
  | [] => []
  | (key, value) :: rest => (Text.quoted key ++ ": " ++ value.outline) :: outlineFields rest

end

end PageBuilder.Json
