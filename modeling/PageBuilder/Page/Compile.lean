import PageBuilder.Page.Draft

/-!
# Pages

`compile` builds the page that a description describes, and `Page.html` is its text. Both can be had
in one go, with `compileToString` from descriptors and with `compileJson` from a JSON text.
-/

namespace PageBuilder

open Dom Files Log

/-- A finished page. -/
structure Page where
  document : Document
  /-- The container. -/
  root : NodeId
  diagnostics : List Diagnostic

namespace Page

/-- The elements in the container, in order. -/
def rootChildren (p : Page) : List NodeId := p.document.tree.children p.root

/-- The styles in the head, in order. -/
def styleNodes (p : Page) : List NodeId :=
  (p.document.tree.children p.document.head).filter fun n =>
    p.document.tree.tag? n == some "style"

/-- Whether no descriptor had a problem. -/
def isClean (p : Page) : Bool := p.diagnostics.isEmpty

/-- The page as text. -/
def html (p : Page) (layout : Markup.Layout) : String := Markup.page layout p.document

/-- The diagnostics as JSON. -/
def diagnosticsJson (p : Page) : Json := .array (p.diagnostics.map Diagnostic.toJson)

end Page

/-- Builds the page that a description describes, and what is logged meanwhile. -/
def compile (settings : Settings) (description : List Descriptor) : Page × List Event :=
  let d := (Draft.start settings).visitAll settings 1 description
  let page : Page := ⟨d.document, d.root, d.diagnostics.toList⟩
  let summary := Event.compiled description.length page.rootChildren.length page.styleNodes.length
    page.diagnostics.length
  (page, d.log.toList ++ [summary])

/-- Renders a page, with what is logged meanwhile. -/
def render (settings : Settings) (page : Page) : String × List Event :=
  let html := page.html settings.layout
  (html, [.rendered html.utf8ByteSize])

/-- The text of the page that a description describes. -/
def compileToString (settings : Settings) (description : List Descriptor) : String :=
  (compile settings description).1.html settings.layout

/-- The text of the page that a JSON text describes, with default settings. -/
def compileJson (text : String) : Except DescriptionError String :=
  (parseDescription text).map (compileToString {})

/-! ## Saving

A page is saved as a whole or not at all, and either is logged. A page that cannot be saved has been
built all the same; only the saving fails.
-/

/-- Which file could not be written, and why. -/
structure WriteError where
  path : String
  reason : FileError
deriving DecidableEq, Repr

/-- The wording of an error. -/
def WriteError.message (e : WriteError) : String :=
  "failed to write " ++ e.path ++ ": " ++ e.reason.message

variable {m : Type → Type} [Monad m] [FileAccess m]

/-- Writes a page's text to a file. -/
def writePage (path html : String) : m (Except WriteError Unit × List Event) := do
  match ← FileAccess.writeText path html with
  | .ok () => return (.ok (), [.written path])
  | .error reason => return (.error ⟨path, reason⟩, [.notWritten path reason])

/-- Builds a page and writes it to a file. -/
def compileTo (settings : Settings) (description : List Descriptor) (path : String) :
    m (Except WriteError Page × List Event) := do
  let (page, building) := compile settings description
  let (html, rendering) := render settings page
  let (result, writing) ← writePage path html
  return (result.map fun _ => page, building ++ rendering ++ writing)

end PageBuilder
