import PageBuilder.Files.Access
import PageBuilder.Page.Diagnostic

/-!
# The log

Everything the program does leaves an `Event`. An event knows how serious it is, which part of the
program it comes from and how it reads.
-/

namespace PageBuilder

/-- The name of the program. -/
def programName : String := "kefir"

/-- The version of the program. -/
def version : String := "0.1.0"

/-- How the program greets. -/
def banner : String := programName ++ " v" ++ version

namespace Log

/-- How serious an event is, from the least to the most. -/
inductive Level where
  | debug
  | info
  | warn
  | error
deriving DecidableEq, Repr

namespace Level

/-- The name of a level. -/
def name : Level → String
  | debug => "DEBUG"
  | info => "INFO"
  | warn => "WARN"
  | error => "ERROR"

/-- Whether events of a level are shown to someone who did not ask for details. -/
def isShown : Level → Bool
  | debug => false
  | _ => true

end Level

/-- What happened. -/
inductive Event where
  | started
  /-- A descriptor has a problem. -/
  | diagnosed (d : Diagnostic)
  /-- A record's type names no element. -/
  | noElement (index : Nat) (type : Option Json)
  | compiled (descriptors roots styles diagnostics : Nat)
  | rendered (bytes : Nat)
  /-- How many descriptors had problems. -/
  | summed (diagnostics : Nat)
  | written (path : String)
  | notWritten (path : String) (error : Files.FileError)

namespace Event

/-- How serious the event is. -/
def level : Event → Level
  | started | written _ => .info
  | diagnosed _ | summed _ => .warn
  | noElement _ _ | compiled _ _ _ _ | rendered _ => .debug
  | notWritten _ _ => .error

/-- The part of the program that the event comes from. -/
def source : Event → String
  | started | summed _ => "kefir"
  | diagnosed _ | noElement _ _ | compiled _ _ _ _ => "kefir::compiler"
  | rendered _ => "kefir_html::serializer"
  | written _ | notWritten _ _ => "kefir::output"

/-- How a type that names no element is shown. -/
def typeOutline : Option Json → String
  | none => "None"
  | some type => "Some(" ++ type.outline ++ ")"

/-- The wording of an event. -/
def message : Event → String
  | started => banner
  | diagnosed d => d.text
  | noElement index type =>
    "Element " ++ toString index ++ ": no element for type " ++ typeOutline type
  | compiled descriptors roots styles diagnostics =>
    "Compiled " ++ toString descriptors ++ " descriptors into " ++ toString roots
      ++ " root elements, " ++ toString styles ++ " styles (" ++ toString diagnostics
      ++ " diagnostics)"
  | rendered bytes => "Serialized document: " ++ toString bytes ++ " bytes"
  | summed diagnostics => toString diagnostics ++ " descriptor(s) had problems"
  | written path => "Successfully wrote to " ++ path
  | notWritten path error => "Failed to write " ++ path ++ ": " ++ error.message

/-- What an event says besides its message. -/
def details : Event → String
  | diagnosed d =>
    " index=" ++ toString d.index ++ " code=" ++ Text.quoted d.problem.code
  | noElement index _ => " index=" ++ toString index
  | _ => ""

/-- How a character of a message is written where it could reach a terminal: the control characters
with which terminals are steered are shown by their number. -/
def shownForm (c : Char) : String :=
  let n := c.toNat
  if c = '\x1b' ∨ c = '\x07' ∨ c = '\x08' ∨ c = '\x0c' ∨ c = '\x7f' then
    "\\x" ++ Json.twoDigits n
  else if 0x80 ≤ n ∧ n ≤ 0x9F then
    "\\u\x7b" ++ Text.hexadecimal n ++ "\x7d"
  else
    String.singleton c

/-- An event as a line of the log. -/
def line (e : Event) : String :=
  let message := String.join (e.message.toList.map shownForm)
  e.level.name ++ " " ++ e.source ++ ": " ++ message ++ e.details

end Event

end Log

end PageBuilder
