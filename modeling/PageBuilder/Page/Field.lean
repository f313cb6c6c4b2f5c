import PageBuilder.Dom.Tree
import PageBuilder.Json.Value
import PageBuilder.Text.Characters

/-!
# Records and their fields

A record describes one element by named fields. Each accessor of `Record` states what a field may be
and gives a `FieldError` for anything else; a field that is absent and one that is `null` are the
same everywhere.
-/

namespace PageBuilder

open Dom

/-! ## Errors -/

/-- What a field has to be. -/
inductive Expected where
  | scalar
  | array
  | string
deriving DecidableEq, Repr

/-- What messages call it. -/
def Expected.phrase : Expected → String
  | scalar => "a string, number or boolean"
  | array => "an array"
  | string => "a string"

/-- Why an element could not be built as its record says. -/
inductive FieldError where
  | missing (field : String)
  | wrongType (field : String) (expected : Expected) (found : Json.Kind)
  | invalidAttributeName (name : String)
  /-- The tree refused a change. -/
  | tree (error : TreeError)
deriving DecidableEq, Repr

/-- The wording of an error. -/
def FieldError.message : FieldError → String
  | missing field => "missing required field `" ++ field ++ "`"
  | wrongType field expected found =>
    "field `" ++ field ++ "` must be " ++ expected.phrase ++ ", found " ++ found.phrase
  | invalidAttributeName name => "`" ++ name ++ "` is not a valid attribute name"
  | tree error => error.message

/-! ## Values -/

/-- A string, number or boolean as text; `field` is how messages call the place of the value. -/
def scalarText (field : String) : Json → Except FieldError String
  | .string s => .ok s
  | .number n => .ok n.text
  | .bool b => .ok (if b then "true" else "false")
  | other => .error (.wrongType field .scalar other.kind)

/-- The characters that end or break an attribute name in a start tag. -/
def breaksAttributeName (c : Char) : Bool :=
  Text.isBlank c || Text.isControl c || c == '"' || c == '\'' || c == '>' || c == '<' || c == '/'
    || c == '='

/-- Whether a text can stand as an attribute name in a start tag. -/
def isAttributeName (name : String) : Bool :=
  name != "" && !name.toList.any breaksAttributeName

/-! ## Records -/

/-- The fields of a record. -/
structure Record where
  fields : Json.Fields := []

namespace Record

/-- A record with this field set. -/
def set (r : Record) (field : String) (value : Json) : Record :=
  ⟨Json.setField field value r.fields⟩

/-- A record that has a type and nothing else. -/
def ofType (typeName : String) : Record := ({} : Record).set "type" (.string typeName)

/-- The value of a field. -/
def get? (r : Record) (field : String) : Option Json := Json.field? field r.fields

/-- The value of a field that is present and not `null`. -/
def given? (r : Record) (field : String) : Option Json :=
  match r.get? field with
  | some .null => none
  | value => value

/-- The record's type, if that is a string. -/
def typeName? (r : Record) : Option String :=
  match r.get? "type" with
  | some (.string s) => some s
  | _ => none

/-- A scalar field as text. -/
def scalar (r : Record) (field : String) : Except FieldError (Option String) :=
  match r.given? field with
  | none => .ok none
  | some value => (scalarText field value).map some

/-- A scalar field that has to be there. -/
def requiredScalar (r : Record) (field : String) : Except FieldError String :=
  match r.given? field with
  | none => .error (.missing field)
  | some value => scalarText field value

/-- The items of an array that has to be there. -/
def array (r : Record) (field : String) : Except FieldError (List Json) :=
  match r.given? field with
  | none => .error (.missing field)
  | some (.array items) => .ok items
  | some other => .error (.wrongType field .array other.kind)

/-- The `id`, unless it is blank. -/
def id (r : Record) : Except FieldError (Option String) :=
  (r.scalar "id").map fun id => id.filter fun s => !s.toList.all Text.isBlank

/-- The `action`, a text that is bound to events as it is. -/
def action (r : Record) : Except FieldError (Option String) :=
  match r.given? "action" with
  | none => .ok none
  | some (.string s) => .ok (some s)
  | some other => .error (.wrongType "action" .string other.kind)

/-- The `action_type`, the name of an attribute. -/
def actionType (r : Record) : Except FieldError (Option String) :=
  match r.scalar "action_type" with
  | .error e => .error e
  | .ok none => .ok none
  | .ok (some name) =>
    if isAttributeName name then .ok (some name) else .error (.invalidAttributeName name)

end Record

end PageBuilder
