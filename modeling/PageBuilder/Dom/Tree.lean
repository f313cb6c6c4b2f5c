import PageBuilder.Dom.Node

/-!
# Trees

A `Tree` holds all its nodes in one array, the document node first. Nodes are created detached and
are only ever appended, so a node that has a parent keeps it.

* `Tree.append` puts a node at the end of another's children. It refuses what would break the
  tree: a parent that is a text, a child that already has a parent, a node below itself.
* `Tree.children`, `Tree.isAncestor` and `Tree.textContent` walk along the links. Each walk is given
  as many steps as the tree has nodes, which is enough because links never form a cycle.

An operation that can fail gives its result together with the tree it leaves behind.
-/

namespace PageBuilder.Dom

/-- Why an operation on a tree was refused. -/
inductive TreeError where
  /-- There is no such node. -/
  | notFound (node : NodeId)
  /-- The child may not be appended to this parent. -/
  | hierarchy (parent child : NodeId)
  /-- The node is no element. -/
  | notAnElement (node : NodeId)
deriving DecidableEq, Repr

namespace TreeError

/-- The wording of a refusal. -/
def message : TreeError → String
  | notFound n => "node " ++ n.text ++ " not found"
  | hierarchy parent child =>
    "hierarchy request error: cannot append " ++ child.text ++ " to " ++ parent.text
  | notAnElement n => "node " ++ n.text ++ " is not an element"

end TreeError

/-- Nodes by number, and the names that their elements and attributes use. -/
structure Tree where
  nodes : Array Node
  names : NameTable
deriving DecidableEq

namespace Tree

/-- A tree with nothing but the document node. -/
def new : Tree := ⟨#[{ content := .document }], NameTable.initial⟩

/-- How many nodes there are, attached or not. -/
def size (t : Tree) : Nat := t.nodes.size

/-- Whether there is no node at all. -/
def isEmpty (t : Tree) : Bool := t.nodes.isEmpty

/-! ## Looking at nodes -/

/-- The node with a given number. -/
def get? (t : Tree) (n : NodeId) : Option Node := t.nodes[n.index]?

/-- The element with a given number. -/
def element? (t : Tree) (n : NodeId) : Option Element := (t.get? n).bind Node.element?

/-- The parent of a node. -/
def parent? (t : Tree) (n : NodeId) : Option NodeId := (t.get? n).bind Node.parent

/-- The tag of an element. -/
def tag? (t : Tree) (n : NodeId) : Option String :=
  (t.element? n).map fun e => t.names.name e.name

/-- The value of an element's attribute. -/
def attribute? (t : Tree) (n : NodeId) (name : String) : Option String :=
  (t.names.find? name).bind fun id => (t.element? n).bind fun e => e.attribute? id

/-- The option of a select control that starts selected. -/
def selectedIndex? (t : Tree) (n : NodeId) : Option Nat := (t.element? n).bind Element.selectedIndex

/-! ## Walks -/

/-- Whether `target` is met on the way up from `start`, within a number of steps. -/
def climbs (t : Tree) (target : NodeId) : Nat → Option NodeId → Bool
  | 0, _ => false
  | _, none => false
  | steps + 1, some n => n == target || t.climbs target steps (t.parent? n)

/-- Whether `ancestor` is above `n`. -/
def isAncestor (t : Tree) (ancestor n : NodeId) : Bool := t.climbs ancestor t.size (t.parent? n)

/-- The nodes from `start` on along the links to the next sibling, within a number of steps. -/
def siblings (t : Tree) : Nat → Option NodeId → List NodeId
  | 0, _ => []
  | _, none => []
  | steps + 1, some n =>
    match t.get? n with
    | none => []
    | some node => n :: t.siblings steps node.next

/-- The children of a node, in order. -/
def children (t : Tree) (n : NodeId) : List NodeId :=
  t.siblings t.size ((t.get? n).bind Node.firstChild)

/-- How many children a node has. -/
def childCount (t : Tree) (n : NodeId) : Nat := (t.children n).length

/-- Whether a node has a child that is an element. -/
def hasElementChild (t : Tree) (n : NodeId) : Bool :=
  (t.children n).any fun c => (t.element? c).isSome

/-- The texts at and below a node, as deep as a number of levels. -/
def textWithin (t : Tree) : Nat → NodeId → String
  | 0, _ => ""
  | levels + 1, n =>
    match (t.get? n).bind Node.text? with
    | some s => s
    | none => String.join ((t.children n).map (t.textWithin levels))

/-- All text at and below a node, in document order. -/
def textContent (t : Tree) (n : NodeId) : String := t.textWithin t.size n

/-! ## Changes -/

/-- Changes the node with a given number, if there is one. -/
def modify (t : Tree) (n : NodeId) (f : Node → Node) : Tree :=
  { t with nodes := t.nodes.modify n.index f }

theorem get?_modify (t : Tree) (n m : NodeId) (f : Node → Node) :
    (t.modify n f).get? m = if m = n then (t.get? m).map f else t.get? m := by
  obtain ⟨i⟩ := n
  obtain ⟨j⟩ := m
  simp only [get?, modify, Array.getElem?_modify, NodeId.mk.injEq, eq_comm (a := i)]

/-- Adds a detached node. -/
def add (t : Tree) (content : Content) : NodeId × Tree :=
  (⟨t.size⟩, { t with nodes := t.nodes.push { content } })

theorem size_add (t : Tree) (content : Content) : (t.add content).2.size = t.size + 1 :=
  Array.size_push ..

/-- A new node has no links, and the others are as they were. -/
theorem get?_add (t : Tree) (content : Content) (n : NodeId) :
    (t.add content).2.get? n = if n = (t.add content).1 then some { content } else t.get? n := by
  obtain ⟨i⟩ := n
  simp only [get?, add, size, Array.getElem?_push, NodeId.mk.injEq]

/-- Creates a detached element. -/
def createElement (t : Tree) (tag : String) : NodeId × Tree :=
  let (name, names) := t.names.intern tag
  { t with names }.add (.element { name })

/-- Creates a detached text. -/
def createText (t : Tree) (s : String) : NodeId × Tree := t.add (.text s)

/-- Links a detached child in as the last child of a parent. -/
def attach (t : Tree) (parent child : NodeId) : Tree :=
  let last := (t.get? parent).bind Node.lastChild
  let t := match last with
    | some l => t.modify l fun n => { n with next := some child }
    | none => t.modify parent fun n => { n with firstChild := some child }
  let t := t.modify parent fun n => { n with lastChild := some child }
  t.modify child fun n => { n with parent := some parent, previous := last }

/-- Appends a node to the children of another, and gives the node that was appended. -/
def append (t : Tree) (parent child : NodeId) : Except TreeError NodeId × Tree :=
  match t.get? parent, t.get? child with
  | none, _ => (.error (.notFound parent), t)
  | _, none => (.error (.notFound child), t)
  | some p, some c =>
    if !p.canHaveChildren || child == parent || child == NodeId.root || c.parent.isSome
        || t.isAncestor child parent then
      (.error (.hierarchy parent child), t)
    else
      (.ok child, t.attach parent child)

/-- Changes an element; a node that is missing or no element is an error. -/
def updateElement (t : Tree) (n : NodeId) (f : Element → Element) : Except TreeError Unit × Tree :=
  match t.get? n with
  | none => (.error (.notFound n), t)
  | some node =>
    match node.content with
    | .element e => (.ok (), t.modify n fun node => { node with content := .element (f e) })
    | _ => (.error (.notAnElement n), t)

/-- Sets an attribute. The `id` attribute is also kept for look-ups. The name is numbered first,
even if the node then turns out to be no element. -/
def setAttribute (t : Tree) (n : NodeId) (name value : String) : Except TreeError Unit × Tree :=
  let (nameId, names) := t.names.intern name
  { t with names }.updateElement n fun e =>
    let e := if name = "id" then { e with id := some value } else e
    e.setAttribute nameId value

/-- Sets the `id` attribute. -/
def setId (t : Tree) (n : NodeId) (value : String) : Except TreeError Unit × Tree :=
  t.setAttribute n "id" value

/-- Records which option of a select control starts selected. -/
def setSelectedIndex (t : Tree) (n : NodeId) (index : Nat) : Except TreeError Unit × Tree :=
  t.updateElement n fun e => { e with selectedIndex := some index }

end Tree

end PageBuilder.Dom
