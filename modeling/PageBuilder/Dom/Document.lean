import PageBuilder.Dom.Tree

/-!
# Documents

A `Document` is a tree that always has the skeleton `html > (head, body)`.
`Document.elementById?` finds the first element in document order that carries an id.

Whoever holds a tree can only change it by its operations. `Tree.Reachable` are the trees that come
about in this way from a new tree, and `Document.Reachable` the documents, which offer one operation
more.
-/

namespace PageBuilder.Dom

/-- A tree with the three elements of its skeleton. -/
structure Document where
  tree : Tree
  html : NodeId
  head : NodeId
  body : NodeId
deriving DecidableEq

namespace Tree

/-- The first element below a node, in document order, that carries an id, as deep as a number of
levels. -/
def findId (t : Tree) (id : String) : Nat → NodeId → Option NodeId
  | 0, _ => none
  | levels + 1, n =>
    (t.children n).findSome? fun c =>
      if (t.element? c).bind Element.id = some id then some c else t.findId id levels c

end Tree

namespace Document

/-- A document with an empty head and an empty body. -/
def new : Document :=
  let (html, t) := Tree.new.createElement "html"
  let (head, t) := t.createElement "head"
  let (body, t) := t.createElement "body"
  let t := ((t.attach NodeId.root html).attach html head).attach html body
  { tree := t, html, head, body }

/-- Appends a `div` with an id to the body. -/
def appendContainer (d : Document) (id : String) : NodeId × Document :=
  let (name, names) := d.tree.names.intern "id"
  let (div, t) := { d.tree with names }.createElement "div"
  let (_, t) := t.updateElement div fun e => { e with id := some id }.setAttribute name id
  (div, { d with tree := t.attach d.body div })

/-- The first element in document order that carries an id. -/
def elementById? (d : Document) (id : String) : Option NodeId :=
  d.tree.findId id d.tree.size NodeId.root

end Document

/-! ## Histories

Operations that are refused count too: what they leave behind is also reached.
-/

/-- A use of one of the operations of a tree. -/
inductive Operation where
  | createElement (tag : String)
  | createText (s : String)
  | append (parent child : NodeId)
  | setAttribute (n : NodeId) (name value : String)
  | setId (n : NodeId) (value : String)
  | setSelectedIndex (n : NodeId) (index : Nat)
deriving DecidableEq, Repr

/-- Uses an operation on a tree. -/
def Operation.run (t : Tree) : Operation → Except TreeError Unit × Tree
  | createElement tag => (.ok (), (t.createElement tag).2)
  | createText s => (.ok (), (t.createText s).2)
  | append parent child =>
    let (result, t) := t.append parent child
    (result.map fun _ => (), t)
  | setAttribute n name value => t.setAttribute n name value
  | setId n value => t.setId n value
  | setSelectedIndex n index => t.setSelectedIndex n index

/-- The trees that operations lead to. -/
inductive Tree.Reachable : Tree → Prop where
  | new : Reachable Tree.new
  | run {t : Tree} (op : Operation) : Reachable t → Reachable (op.run t).2

/-- The documents that operations lead to. -/
inductive Document.Reachable : Document → Prop where
  | new : Reachable Document.new
  | run {d : Document} (op : Operation) :
      Reachable d → Reachable { d with tree := (op.run d.tree).2 }
  | appendContainer {d : Document} (id : String) :
      Reachable d → Reachable (d.appendContainer id).2

end PageBuilder.Dom
