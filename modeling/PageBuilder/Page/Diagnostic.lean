import PageBuilder.Json.Printer
import PageBuilder.Page.Field

/-!
# Diagnostics

A descriptor that cannot be followed never stops a page from being built. What was wrong with it is
kept as a `Diagnostic`, with the descriptor's position in the description counted from 1.
-/

namespace PageBuilder

/-- What is wrong with a descriptor. -/
inductive Problem where
  /-- It is neither a string nor a record. -/
  | notADescriptor (found : Json.Kind)
  /-- Its type is missing, empty or no string. -/
  | missingType
  /-- One of its fields could not be used. -/
  | field (error : FieldError)
deriving DecidableEq, Repr

namespace Problem

/-- A short name for programs to look at. -/
def code : Problem → String
  | notADescriptor _ => "not_a_descriptor"
  | missingType => "missing_type"
  | field _ => "field_error"

/-- The wording of a problem. -/
def message : Problem → String
  | notADescriptor found => "expected a string or an object, found " ++ found.phrase
  | missingType => "type is not defined or is not a string"
  | field error => error.message

end Problem

/-- A problem and the position of the descriptor that has it. -/
structure Diagnostic where
  index : Nat
  problem : Problem
deriving DecidableEq, Repr

namespace Diagnostic

/-- A diagnostic as a line of text. -/
def text (d : Diagnostic) : String :=
  "Element " ++ toString d.index ++ ": " ++ d.problem.message

/-- A diagnostic as an object. -/
def toJson (d : Diagnostic) : Json :=
  .object [("index", .number (.integer d.index)), ("code", .string d.problem.code),
    ("message", .string d.problem.message)]

end Diagnostic

end PageBuilder
