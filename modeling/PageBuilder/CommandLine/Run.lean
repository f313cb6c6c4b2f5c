import PageBuilder.CommandLine.Options
import PageBuilder.Files.Access
import PageBuilder.Page.Compile

/-!
# A run of the command line

A run reads a description, builds its page, prints what was asked for and writes the page to a file.
Problems with descriptors are logged and do not count as a failure. `Outcome` is all that a run
leaves besides the file.
-/

namespace PageBuilder.CommandLine

open Files Log

/-- What a run leaves: its exit status, what it printed, and what it logged. -/
structure Outcome where
  status : Nat
  output : String := ""
  errorOutput : String := ""
  log : List Event := []

/-- How a failure is reported: what failed, and why, with several reasons numbered. -/
def failureReport (what : String) (reasons : List String) : String :=
  let listed :=
    match reasons with
    | [reason] => "    " ++ reason ++ "\n"
    | reasons => String.join (reasons.zipIdx.map fun (reason, i) =>
        "    " ++ toString i ++ ": " ++ reason ++ "\n")
  "Error: " ++ what ++ "\n\nCaused by:\n" ++ listed

/-- Why a text is no description, from the outermost reason to the innermost. -/
def parseReasons (e : DescriptionError) : List String :=
  match e with
  | .json inner => [e.message, inner.message]
  | .notAnArray _ => [e.message]

namespace Options

/-- The settings of the page. -/
def settings (o : Options) : Settings := { rootId := o.rootId, pretty := o.pretty }

/-- The file that the page is written to: the one that was named, or the input's path with another
extension. -/
def outputPath (o : Options) : String := o.output.getD (Path.withExtension o.input "html")

/-- What is printed about a page. -/
def printed (o : Options) (page : Page) (html : String) : String :=
  (if o.print then html ++ "\n" else "")
    ++ (if o.diagnosticsJson then page.diagnosticsJson.pretty ++ "\n" else "")

end Options

/-- The text that explains the options. -/
def helpText : String :=
  String.join <| List.map (· ++ "\n") [
    "Compile a JSON UI description into an HTML page",
    "",
    "Usage: kefir [OPTIONS] <INPUT>",
    "",
    "Arguments:",
    "  <INPUT>  JSON file holding an array of UI descriptors",
    "",
    "Options:",
    "  -o, --output <OUTPUT>    Output file (default: INPUT with an .html extension)",
    "      --pretty             Indent the generated HTML",
    "      --root-id <ROOT_ID>  id of the container holding the page's elements [default: root]",
    "      --print              Echo the generated document to stdout",
    "      --diagnostics-json   Dump diagnostics to stdout as JSON",
    "  -h, --help               Print help",
    "  -V, --version            Print version"]

variable {m : Type → Type} [Monad m] [FileAccess m]

/-- Builds the page of a description and writes it. -/
def buildPage (o : Options) (description : List Descriptor) : m Outcome := do
  let (page, building) := compile o.settings description
  let (html, rendering) := render o.settings page
  let summary := if page.isClean then [] else [Event.summed page.diagnostics.length]
  let (result, writing) ← writePage o.outputPath html
  let outcome : Outcome := {
    status := 0
    output := o.printed page html
    log := building ++ rendering ++ summary ++ writing }
  match result with
  | .ok () => return outcome
  | .error e =>
    return { outcome with
      status := 1
      errorOutput := failureReport e.message [e.reason.message] }

/-- A run with given options. -/
def runWith (o : Options) : m Outcome := do
  match ← FileAccess.readText o.input with
  | .error e =>
    return { status := 1, errorOutput := failureReport ("failed to read " ++ o.input) [e.message] }
  | .ok text =>
    match parseDescription text with
    | .error e =>
      return {
        status := 1
        errorOutput := failureReport ("failed to parse " ++ o.input) (parseReasons e) }
    | .ok description => buildPage o description

/-- A run with given arguments. The greeting is logged before the arguments are looked at. -/
def run (args : List String) : m Outcome := do
  match Options.ofArguments args with
  | .error .misuse => return { status := 2, log := [.started] }
  | .error .help => return { status := 0, output := helpText, log := [.started] }
  | .error .version =>
    return { status := 0, output := programName ++ " " ++ version ++ "\n", log := [.started] }
  | .ok o =>
    let outcome ← runWith o
    return { outcome with log := .started :: outcome.log }

end PageBuilder.CommandLine
