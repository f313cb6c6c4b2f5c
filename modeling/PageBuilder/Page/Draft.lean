import PageBuilder.Log
import PageBuilder.Page.Part

/-!
# Drafts

A `Draft` is a page under construction. Descriptors are visited one by one, and none stops the
others: what is wrong with one is kept as a diagnostic, and logged.
-/

namespace PageBuilder

open Dom Log

/-- A page under construction, with what was reported so far. -/
structure Draft where
  document : Document
  /-- The container. -/
  root : NodeId
  diagnostics : Array Diagnostic := #[]
  log : Array Event := #[]

namespace Draft

/-- A page with an empty container. -/
def start (settings : Settings) : Draft :=
  let (root, document) := Document.new.appendContainer settings.rootId
  { document, root }

/-- Logs an event. -/
def note (d : Draft) (e : Event) : Draft := { d with log := d.log.push e }

/-- Keeps and logs a problem. -/
def report (d : Draft) (index : Nat) (problem : Problem) : Draft :=
  { d.note (.diagnosed ⟨index, problem⟩) with diagnostics := d.diagnostics.push ⟨index, problem⟩ }

/-- The node under which elements of a place go. -/
def parent (d : Draft) : Place → NodeId
  | .head => d.document.head
  | .root => d.root

/-- Builds a part. -/
def build (d : Draft) (part : Part) : Except FieldError Unit × Draft :=
  let (result, tree) :=
    match appendElement d.document.tree (d.parent part.place) part.tag with
    | (.error e, t) => (.error (.tree e), t)
    | (.ok n, t) => runStages n t part.stages
  (result, { d with document.tree := tree })

/-- Builds a part and reports what went wrong with it. -/
def add (d : Draft) (index : Nat) (part : Part) : Draft :=
  match d.build part with
  | (.ok (), d) => d
  | (.error e, d) => d.report index (.field e)

/-- Does what a descriptor says. -/
def visit (settings : Settings) (d : Draft) (index : Nat) : Descriptor → Draft
  | .directive s => d.add index (Part.ofDirective s)
  | .element r =>
    let d := if r.hasType then d else d.report index .missingType
    match r.kind? with
    | some kind => d.add index (Part.ofRecord settings kind r)
    | none => d.note (.noElement index (r.get? "type"))
  | .invalid value => d.report index (.notADescriptor value.kind)

/-- Does what descriptors say, the first of which has a given position. -/
def visitAll (settings : Settings) (d : Draft) (index : Nat) : List Descriptor → Draft
  | [] => d
  | x :: rest => (d.visit settings index x).visitAll settings (index + 1) rest

end Draft

end PageBuilder
