import PageBuilder.Json.Read
import PageBuilder.Page.Field

/-!
# Descriptions of pages

A page is described by a list of descriptors, given as a JSON array. A string is a directive, an
object a record; an array counts as a record without fields, and whatever else stands in the list is
invalid. `parseDescription` reads the whole text first and then looks at its items;
`readDescription` makes a descriptor of each item as it is read.
-/

namespace PageBuilder

/-- One item of a description. -/
inductive Descriptor where
  | directive (s : String)
  | element (r : Record)
  | invalid (value : Json)

namespace Descriptor

/-- The descriptor that a JSON value stands for. -/
def ofJson : Json → Descriptor
  | .string s => directive s
  | .object fields => element ⟨fields⟩
  | .array _ => element {}
  | other => invalid other

end Descriptor

/-- Why a text is no description. -/
inductive DescriptionError where
  | json (error : Json.Error)
  | notAnArray (found : Json.Kind)

/-- The wording of an error. -/
def DescriptionError.message : DescriptionError → String
  | json error => "invalid UI description: " ++ error.message
  | notAnArray found => "UI description must be an array, found " ++ found.phrase

/-- Reads a description from a JSON text. -/
def parseDescription (text : String) : Except DescriptionError (List Descriptor) :=
  match Json.read text with
  | .error e => .error (.json e)
  | .ok (.array items) => .ok (items.map Descriptor.ofJson)
  | .ok other => .error (.notAnArray other.kind)

/-- Reads a description from a JSON text, descriptor by descriptor. -/
def readDescription (text : String) : Except Json.Error (List Descriptor) :=
  Json.readList Descriptor.ofJson text

/-- Reads one descriptor from a JSON text. -/
def readDescriptor (text : String) : Except Json.Error Descriptor :=
  (Json.read text).map Descriptor.ofJson

/-! ## Kinds of elements -/

/-- What a record can describe. -/
inductive ElementKind where
  | text
  | button
  | link
  | select
  | image
  | input
  | div
deriving DecidableEq, Repr

namespace ElementKind

/-- The kind that a record's type names. -/
def ofTypeName? : String → Option ElementKind
  | "text" | "p" => some text
  | "button" | "btn" => some button
  | "link" | "a" => some link
  | "select" => some select
  | "img" | "image" => some image
  | "input" => some input
  | "div" => some div
  | _ => none

/-- The tag of the element. -/
def tag : ElementKind → String
  | text => "p"
  | button => "button"
  | link => "a"
  | select => "select"
  | image => "img"
  | input => "input"
  | div => "div"

end ElementKind

end PageBuilder
