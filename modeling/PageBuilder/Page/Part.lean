import PageBuilder.Markup.Render
import PageBuilder.Page.Descriptor
import PageBuilder.Page.Step

/-!
# Parts

A directive, or a record whose type names a kind of element, asks for one element: a `Part` says
where it goes, its tag and the stages in which it is built. Styles go into the head, everything else
into one container in the body. Which fields a record is read for, in which order, is laid down in
`Record.stages`.
-/

namespace PageBuilder

/-! ## Settings -/

/-- What can be chosen about a page. -/
structure Settings where
  /-- The id of the container. -/
  rootId : String := "root"
  /-- The target of every link. -/
  linkTarget : String := "_blank"
  /-- Whether the page is indented. -/
  pretty : Bool := false
  /-- The indentation of one level. -/
  indent : String := Markup.Layout.defaultUnit

/-- The layout that was chosen. -/
def Settings.layout (s : Settings) : Markup.Layout :=
  if s.pretty then .indented s.indent else .compact

/-! ## Records -/

namespace Record

/-- The text of a required field becomes the element's text. -/
def textStage (r : Record) (field : String) : Stage :=
  (r.requiredScalar field).map fun s => [.addText s]

/-- A field that has to be there becomes an attribute. -/
def requiredStage (r : Record) (field name : String) : Stage :=
  (r.requiredScalar field).map fun s => [.setAttribute name s]

/-- A field, if it is there, becomes an attribute. -/
def optionalStage (r : Record) (field name : String) : Stage :=
  (r.scalar field).map fun s => s.toList.map (.setAttribute name)

/-- The action, if there is one, is bound to an event. -/
def actionStage (r : Record) (event : String) : Stage :=
  r.action.map fun a => a.toList.map (.setAttribute event)

/-- The id, if there is one that is not blank, becomes the element's id. -/
def idStage (r : Record) : Stage := r.id.map fun id => id.toList.map .setId

/-- Each entry of the options becomes an option. -/
def optionStages (r : Record) : List Stage :=
  match r.array "options" with
  | .error e => [.error e]
  | .ok items => items.zipIdx.map fun (item, i) =>
    (scalarText ("options[" ++ toString i ++ "]") item).map fun label => [.addOption label]

/-- An input's action is bound to changes and to the event that the record names; without an action
that name is not looked at. -/
def inputActionStages (r : Record) : List Stage :=
  match r.action with
  | .error e => [.error e]
  | .ok none => []
  | .ok (some action) =>
    [.ok [.setAttribute "onchange" action],
      r.actionType.map fun name => name.toList.map fun event => .setAttribute event action]

/-- The stages in which an element of some kind is built. -/
def stages (r : Record) (settings : Settings) (kind : ElementKind) : List Stage :=
  r.idStage :: match kind with
    | .text | .button => [r.textStage "text", r.actionStage "onclick"]
    | .link =>
      [r.textStage "text", r.requiredStage "href" "href",
        .ok [.setAttribute "target" settings.linkTarget]]
    | .select => .ok [.setSelectedIndex 0] :: r.optionStages ++ [r.actionStage "onchange"]
    | .image =>
      [r.requiredStage "src" "src", r.optionalStage "alt" "alt", r.optionalStage "width" "width",
        r.optionalStage "height" "height", r.actionStage "onclick"]
    | .input =>
      [r.optionalStage "input_type" "type", r.optionalStage "placeholder" "placeholder"]
        ++ r.inputActionStages
    | .div => [r.actionStage "onclick"]

/-- The kind of element that the record's type names. -/
def kind? (r : Record) : Option ElementKind := r.typeName?.bind ElementKind.ofTypeName?

/-- Whether the record has a type that is a string and not empty. -/
def hasType (r : Record) : Bool := r.typeName?.any (· != "")

end Record

/-! ## Parts -/

/-- Where an element goes. -/
inductive Place where
  | head
  | root
deriving DecidableEq, Repr

/-- An element that a descriptor asks for. -/
structure Part where
  place : Place
  tag : String
  stages : List Stage

/-- The CSS text of a directive that begins with `css:`, in letters of either case and after any
blanks. -/
def styleText? (directive : String) : Option String :=
  let cs := Text.trimStart directive.toList
  if (cs.take 4).map Char.toLower = "css:".toList then
    some (String.ofList (Text.trim (cs.drop 4)))
  else none

namespace Part

/-- A directive is a line break, a rule, a style or else a paragraph. -/
def ofDirective (s : String) : Part :=
  if s = "br" ∨ s = "hr" then ⟨.root, s, []⟩
  else
    match styleText? s with
    | some css => ⟨.head, "style", [.ok [.addText css]]⟩
    | none => ⟨.root, "p", [.ok [.addText s]]⟩

/-- A record describes an element of its kind. -/
def ofRecord (settings : Settings) (kind : ElementKind) (r : Record) : Part :=
  ⟨.root, kind.tag, r.stages settings kind⟩

end Part

end PageBuilder
