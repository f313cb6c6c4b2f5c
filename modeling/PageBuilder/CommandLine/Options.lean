/-!
# The options of the command line

Arguments are read from left to right. What asks for the program's version or for help is answered
at once, whatever comes after it; what cannot be understood is refused at once. A value may be
joined to its option or follow as the next argument, unless that looks like an option itself. After
`--` no argument is an option.
-/

namespace PageBuilder.CommandLine

/-- What a run is asked to do. -/
structure Options where
  /-- The file that describes the page. -/
  input : String
  /-- The file to write. -/
  output : Option String := none
  pretty : Bool := false
  /-- The id of the container. -/
  rootId : String := "root"
  /-- Whether the page is printed too. -/
  print : Bool := false
  /-- Whether the diagnostics are printed. -/
  diagnosticsJson : Bool := false
deriving DecidableEq, Repr

/-- Why arguments do not lead to a run. -/
inductive Stop where
  | help
  | version
  | misuse
deriving DecidableEq, Repr

/-! ## Single arguments -/

/-- The options that take a value. -/
inductive Setting where
  | output
  | rootId
deriving DecidableEq, Repr

/-- The options that take none. -/
inductive Flag where
  | pretty
  | print
  | diagnosticsJson
  | help
  | version
deriving DecidableEq, Repr

/-- What a single argument means. -/
inductive Argument where
  /-- The end of all options. -/
  | separator
  /-- An option that takes a value, with the value if that is joined to it. -/
  | setting (s : Setting) (value : Option String)
  | flag (f : Flag)
  | positional (s : String)
  | unknown
deriving DecidableEq, Repr

namespace Argument

/-- A value that follows an option; an equals sign in between is left out. -/
def joined? : List Char → Option String
  | [] => none
  | '=' :: rest => some (String.ofList rest)
  | cs => some (String.ofList cs)

/-- The option of a long name, which may be followed by an equals sign and a value. -/
def ofLongName (cs : List Char) : Argument :=
  match String.ofList (cs.takeWhile (· != '=')), joined? (cs.dropWhile (· != '=')) with
  | "output", value => setting .output value
  | "root-id", value => setting .rootId value
  | "pretty", none => flag .pretty
  | "print", none => flag .print
  | "diagnostics-json", none => flag .diagnosticsJson
  | "help", none => flag .help
  | "version", none => flag .version
  | _, _ => unknown

/-- The option of a letter, with what is joined to it. -/
def ofLetter : Char → List Char → Argument
  | 'o', cs => setting .output (joined? cs)
  | 'h', _ => flag .help
  | 'V', _ => flag .version
  | _, _ => unknown

/-- What an argument means before `--`. -/
def ofText (s : String) : Argument :=
  match s.toList with
  | ['-', '-'] => separator
  | '-' :: '-' :: name => ofLongName name
  | '-' :: letter :: rest => ofLetter letter rest
  | _ => positional s

/-- Whether an argument cannot be the value of the option before it. -/
def looksLikeOption (s : String) : Bool :=
  match s.toList with
  | '-' :: _ :: _ => true
  | _ => false

end Argument

/-! ## All arguments -/

/-- What the arguments so far have set. -/
structure Settled where
  input : Option String := none
  output : Option String := none
  pretty : Bool := false
  rootId : Option String := none
  print : Bool := false
  diagnosticsJson : Bool := false
deriving DecidableEq, Repr

namespace Settled

/-- Sets the input. It is set once, and a file has a name. -/
def setInput (s : Settled) (value : String) : Except Stop Settled :=
  if s.input.isSome ∨ value = "" then .error .misuse else .ok { s with input := some value }

/-- Sets an option that takes a value. Each is set once, and a file has a name. -/
def set (s : Settled) (value : String) : Setting → Except Stop Settled
  | .output =>
    if s.output.isSome ∨ value = "" then .error .misuse else .ok { s with output := some value }
  | .rootId => if s.rootId.isSome then .error .misuse else .ok { s with rootId := some value }

/-- Sets a flag. Each is set once. -/
def raise (s : Settled) : Flag → Except Stop Settled
  | .pretty => if s.pretty then .error .misuse else .ok { s with pretty := true }
  | .print => if s.print then .error .misuse else .ok { s with print := true }
  | .diagnosticsJson =>
    if s.diagnosticsJson then .error .misuse else .ok { s with diagnosticsJson := true }
  | .help => .error .help
  | .version => .error .version

/-- Sets what arguments say, after `--`. -/
def readPositional (s : Settled) (args : List String) : Except Stop Settled :=
  args.foldlM setInput s

/-- Sets what arguments say. -/
def readAll (s : Settled) : List String → Except Stop Settled
  | [] => .ok s
  | arg :: rest =>
    match Argument.ofText arg with
    | .separator => s.readPositional rest
    | .positional value => (s.setInput value).bind (·.readAll rest)
    | .flag f => (s.raise f).bind (·.readAll rest)
    | .setting option (some value) => (s.set value option).bind (·.readAll rest)
    | .setting option none =>
      match rest with
      | [] => .error .misuse
      | value :: rest =>
        if Argument.looksLikeOption value then .error .misuse
        else (s.set value option).bind (·.readAll rest)
    | .unknown => .error .misuse

/-- The options that were settled, if an input is among them. -/
def finish (s : Settled) : Except Stop Options :=
  match s.input with
  | none => .error .misuse
  | some input => .ok {
      input
      output := s.output
      pretty := s.pretty
      rootId := s.rootId.getD "root"
      print := s.print
      diagnosticsJson := s.diagnosticsJson }

end Settled

/-- The options that arguments ask for. -/
def Options.ofArguments (args : List String) : Except Stop Options :=
  (Settled.readAll {} args).bind Settled.finish

end PageBuilder.CommandLine
