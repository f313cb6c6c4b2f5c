import PageBuilder.Dom.Tree

/-!
# What a tree shows

A `Rose` is a node with all that is below it and without the numbers that nodes and names have in a
tree. `Tree.view` reads it off the links.
-/

namespace PageBuilder.Dom

/-- A node and what is below it. -/
inductive Rose where
  | document (children : List Rose)
  | element (tag : String) (attributes : List (String × String)) (selectedIndex : Option Nat)
      (children : List Rose)
  | text (s : String)

namespace Rose

mutual

/-- Whether two nodes are the same, with all that is below them. -/
def decEq : (r s : Rose) → Decidable (r = s)
  | document cs, document ds =>
    match decEqAll cs ds with
    | isTrue h => isTrue (congrArg document h)
    | isFalse h => isFalse fun heq => h (document.inj heq)
  | element tag attributes selectedIndex cs, element tag' attributes' selectedIndex' ds =>
    match decEqAll cs ds with
    | isTrue h =>
      decidable_of_iff (tag = tag' ∧ attributes = attributes' ∧ selectedIndex = selectedIndex')
        (by rw [element.injEq, h, eq_self, and_true])
    | isFalse h => isFalse fun heq => h (element.inj heq).2.2.2
  | text s, text s' => decidable_of_iff (s = s') (by rw [text.injEq])
  | document _, element .. | document _, text _ | element .., document _ | element .., text _
  | text _, document _ | text _, element .. => isFalse nofun

/-- Whether two lists of nodes are the same, with all that is below them. -/
def decEqAll : (rs ss : List Rose) → Decidable (rs = ss)
  | [], [] => isTrue rfl
  | r :: rs, s :: ss =>
    match decEq r s, decEqAll rs ss with
    | isTrue h, isTrue h' => isTrue (by rw [h, h'])
    | isFalse h, _ => isFalse fun heq => h (List.cons.inj heq).1
    | _, isFalse h => isFalse fun heq => h (List.cons.inj heq).2
  | [], _ :: _ | _ :: _, [] => isFalse nofun

end

instance : DecidableEq Rose := decEq

end Rose

namespace Tree

/-- The attributes of an element by their names. -/
def namedAttributes (t : Tree) (e : Element) : List (String × String) :=
  e.attributes.map fun a => (t.names.name a.name, a.value)

/-- A node and what is below it, as deep as a number of levels. -/
def viewWithin (t : Tree) : Nat → NodeId → Option Rose
  | 0, _ => none
  | levels + 1, n =>
    (t.get? n).map fun node =>
      match node.content with
      | .document => .document ((t.children n).filterMap (t.viewWithin levels))
      | .element e => .element (t.names.name e.name) (t.namedAttributes e) e.selectedIndex
          ((t.children n).filterMap (t.viewWithin levels))
      | .text s => .text s

/-- A node and what is below it. -/
def view (t : Tree) (n : NodeId) : Option Rose := t.viewWithin t.size n

end Tree

end PageBuilder.Dom
