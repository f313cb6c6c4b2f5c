import PageBuilder.Dom.Names

/-!
# Nodes

A node is a document, an element or a text. It is linked to its neighbours by the numbers that
they have in their tree: its parent, its first and last child, and the siblings on either side.

An element's attributes are an ordered map (`Element.attribute?`, `Element.setAttribute`): setting
an attribute it already has replaces the value in place, any other goes to the end.
-/

namespace PageBuilder.Dom

/-- The number of a node in its tree. Nodes are numbered in the order of their creation. -/
structure NodeId where
  index : Nat
deriving DecidableEq, Repr

namespace NodeId

/-- The document node, with which every tree begins. -/
def root : NodeId := ⟨0⟩

/-- The reserved number that refers to no node. -/
def absent : NodeId := ⟨4294967295⟩

instance : Inhabited NodeId := ⟨absent⟩

/-- Whether a number may refer to a node. -/
def isValid (n : NodeId) : Bool := n != absent

/-- How a node is named in messages. -/
def text (n : NodeId) : String := "NodeId(" ++ toString n.index ++ ")"

end NodeId

/-- An attribute of an element: the number of its name, and its value. -/
structure Attribute where
  name : NameId
  value : String
deriving DecidableEq, Repr

/-- What an element carries besides its place in the tree. -/
structure Element where
  /-- The tag. -/
  name : NameId
  attributes : List Attribute := []
  /-- The value last given to the `id` attribute, kept apart for look-ups. -/
  id : Option String := none
  /-- On a select control, the position among its options of the one that starts selected. -/
  selectedIndex : Option Nat := none
deriving DecidableEq, Repr

namespace Element

/-- The value of an attribute. -/
def attribute? (e : Element) (name : NameId) : Option String :=
  (e.attributes.find? (·.name == name)).map (·.value)

/-- Replaces the value of the first attribute with this name, or else adds one at the end. -/
def withAttribute (name : NameId) (value : String) : List Attribute → List Attribute
  | [] => [⟨name, value⟩]
  | a :: rest =>
    if a.name = name then ⟨a.name, value⟩ :: rest else a :: withAttribute name value rest

/-- Sets an attribute. -/
def setAttribute (e : Element) (name : NameId) (value : String) : Element :=
  { e with attributes := withAttribute name value e.attributes }

end Element

/-- What a node is. -/
inductive Content where
  | document
  | element (e : Element)
  | text (s : String)
deriving DecidableEq, Repr

/-- A node with its links. -/
structure Node where
  content : Content
  parent : Option NodeId := none
  firstChild : Option NodeId := none
  lastChild : Option NodeId := none
  previous : Option NodeId := none
  next : Option NodeId := none
deriving DecidableEq, Repr

namespace Node

/-- The element at this node. -/
def element? (n : Node) : Option Element :=
  match n.content with
  | .element e => some e
  | _ => none

/-- The text at this node. -/
def text? (n : Node) : Option String :=
  match n.content with
  | .text s => some s
  | _ => none

/-- Whether the node is an element. -/
def isElement (n : Node) : Bool := n.element?.isSome

/-- Texts are leaves; every other node may have children. -/
def canHaveChildren (n : Node) : Bool := n.text?.isNone

end Node

end PageBuilder.Dom
