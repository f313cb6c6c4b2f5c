import PageBuilder.Page.Field

/-!
# Steps

An element is built in steps, each a change that may be refused by the tree. The steps come in
stages, one for each reading of a field: a stage is the steps that the field asks for, or the error
that it cannot be read. `runStages` carries stages out in order up to the first error and leaves the
element as it is by then.
-/

namespace PageBuilder

open Dom

/-- A change to the element that is being built. -/
inductive Step where
  | setId (id : String)
  | setAttribute (name value : String)
  | setSelectedIndex (index : Nat)
  | addText (s : String)
  | addOption (label : String)
deriving DecidableEq, Repr

/-- Appends a new text to a node. -/
def appendText (t : Tree) (parent : NodeId) (s : String) : Except TreeError Unit × Tree :=
  let (text, t) := t.createText s
  let (result, t) := t.append parent text
  (result.map fun _ => (), t)

/-- Appends a new element to a node. -/
def appendElement (t : Tree) (parent : NodeId) (tag : String) : Except TreeError NodeId × Tree :=
  let (element, t) := t.createElement tag
  let (result, t) := t.append parent element
  (result.map fun _ => element, t)

/-- Carries out a step on an element. -/
def Step.run (n : NodeId) (t : Tree) : Step → Except TreeError Unit × Tree
  | setId id => t.setId n id
  | setAttribute name value => t.setAttribute n name value
  | setSelectedIndex index => t.setSelectedIndex n index
  | addText s => appendText t n s
  | addOption label =>
    match appendElement t n "option" with
    | (.error e, t) => (.error e, t)
    | (.ok option, t) => appendText t option label

/-- Carries out steps up to the first that is refused. -/
def runSteps (n : NodeId) (t : Tree) : List Step → Except TreeError Unit × Tree
  | [] => (.ok (), t)
  | step :: rest =>
    match step.run n t with
    | (.error e, t) => (.error e, t)
    | (.ok (), t) => runSteps n t rest

/-! ## Stages -/

/-- What the reading of a field comes to: steps, or an error. -/
abbrev Stage := Except FieldError (List Step)

/-- Carries out stages up to the first error. -/
def runStages (n : NodeId) (t : Tree) : List Stage → Except FieldError Unit × Tree
  | [] => (.ok (), t)
  | .error e :: _ => (.error e, t)
  | .ok steps :: rest =>
    match runSteps n t steps with
    | (.error e, t) => (.error (.tree e), t)
    | (.ok (), t) => runStages n t rest

end PageBuilder
