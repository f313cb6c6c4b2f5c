import PageBuilder.Proofs.Dom.Changes

/-!
# Histories

Every tree that operations lead to is in good order (`Tree.Reachable.wellFormed`). So is the tree of
every document, for a document offers nothing that could not be done by the operations of its tree:
its skeleton is made by them, and a container is created, named and appended
(`Document.Reachable.tree`).

The main statement is `linksAgree_of_built`: however a tree came about, its links agree.
-/

namespace PageBuilder.Dom

namespace Tree

variable {t : Tree} {n p : NodeId} {node : Node} {e : Element}

/-- The tree that a sequence of operations leaves behind. -/
def after (t : Tree) (ops : List Operation) : Tree := ops.foldl (fun t op => (op.run t).2) t

theorem Reachable.after (h : t.Reachable) (ops : List Operation) : (t.after ops).Reachable := by
  induction ops generalizing t with
  | nil => exact h
  | cons op ops ih => exact ih (h.run op)

/-! ## Trees -/

theorem get?_new (hn : new.get? n = some node) : n = .root ∧ node = { content := .document } := by
  obtain ⟨i⟩ := n
  rw [get?, new, List.getElem?_toArray] at hn
  cases i with
  | zero => exact ⟨rfl, (Option.some.inj hn).symm⟩
  | succ i => simp at hn

theorem parent?_new (n : NodeId) : new.parent? n = none := by
  cases hn : new.get? n with
  | none => rw [parent?, hn, Option.bind_none]
  | some node =>
    obtain ⟨-, rfl⟩ := get?_new hn
    rw [parent?_of_get? hn]

theorem wellFormed_new : new.WellFormed where
  link_lt := by
    intro n node hn m hm
    obtain ⟨-, rfl⟩ := get?_new hn
    simp [Node.links] at hm
  exists_children := by
    intro p node hp
    obtain ⟨-, rfl⟩ := get?_new hp
    exact ⟨[], List.nodup_nil, rfl, rfl, fun c => by simp [parent?_new]⟩
  detached := by
    intro n node hn _
    obtain ⟨-, rfl⟩ := get?_new hn
    exact ⟨rfl, rfl⟩
  acyclic := fun n => not_above_of_parent?_eq_none (parent?_new n)
  document_iff := by
    intro n node hn
    obtain ⟨rfl, rfl⟩ := get?_new hn
    exact iff_of_true rfl rfl
  root := ⟨{ content := .document }, rfl, rfl⟩
  leaf := by
    intro n node hn _
    obtain ⟨-, rfl⟩ := get?_new hn
    exact ⟨rfl, rfl⟩
  tag := by
    intro n e he
    obtain ⟨node, hn, hcontent⟩ := element?_eq_some_iff.1 he
    obtain ⟨-, rfl⟩ := get?_new hn
    cases hcontent
  attributes := by
    intro n e he
    obtain ⟨node, hn, hcontent⟩ := element?_eq_some_iff.1 he
    obtain ⟨-, rfl⟩ := get?_new hn
    cases hcontent

/-- **Every tree that operations lead to is in good order.** -/
theorem Reachable.wellFormed (h : t.Reachable) : t.WellFormed := by
  induction h with
  | new => exact wellFormed_new
  | run op _ ih => exact ih.run op

/-! ## What operations keep -/

/-- A number keeps its name. -/
theorem name?_run {id : NameId} {s : String} (h : t.names.name? id = some s) (op : Operation) :
    (op.run t).2.names.name? id = some s := by
  cases op with
  | createElement tag => exact NameTable.name?_intern_of_eq_some h tag
  | createText s => exact h
  | append parent child =>
    show (t.append parent child).2.names.name? id = some s
    rwa [names_append]
  | setAttribute n name value =>
    show (t.setAttribute n name value).2.names.name? id = some s
    rw [setAttribute_eq, names_updateElement]
    exact NameTable.name?_intern_of_eq_some h name
  | setId n value =>
    show (t.setAttribute n "id" value).2.names.name? id = some s
    rw [setAttribute_eq, names_updateElement]
    exact NameTable.name?_intern_of_eq_some h "id"
  | setSelectedIndex n index =>
    show (t.updateElement n _).2.names.name? id = some s
    rw [names_updateElement]
    exact h

/-- An element stays one. -/
theorem isSome_element?_run (h : (t.element? n).isSome) (op : Operation) :
    ((op.run t).2.element? n).isSome := by
  have hupdate : ∀ (t : Tree) m f, (t.element? n).isSome →
      ((t.updateElement m f).2.element? n).isSome := fun t m f h => by
    rwa [element?_updateElement, Option.isSome_map]
  have hadd : ∀ (t : Tree) content, (t.element? n).isSome →
      ((t.add content).2.element? n).isSome := fun t content h => by
    obtain ⟨e, he⟩ := Option.isSome_iff_exists.1 h
    obtain ⟨node, hn, hcontent⟩ := element?_eq_some_iff.1 he
    rw [element?_eq_some_iff.2 ⟨node, get?_add_of_get? hn, hcontent⟩]
    rfl
  cases op with
  | createElement tag => exact hadd (t.withName tag) _ h
  | createText s => exact hadd t _ h
  | append parent child =>
    show ((t.append parent child).2.element? n).isSome
    rwa [element?_append]
  | setAttribute m name value => exact hupdate (t.withName name) m _ h
  | setId m value => exact hupdate (t.withName "id") m _ h
  | setSelectedIndex m index => exact hupdate t m _ h

theorem isSome_element?_after (h : (t.element? n).isSome) (ops : List Operation) :
    ((t.after ops).element? n).isSome := by
  induction ops generalizing t with
  | nil => exact h
  | cons op ops ih => exact ih (isSome_element?_run h op)

/-- Every tree knows the name of the `id` attribute. -/
theorem Reachable.name?_id (h : t.Reachable) : t.names.name? ⟨15⟩ = some "id" := by
  induction h with
  | new => decide +kernel
  | run op _ ih => exact name?_run ih op

end Tree

/-! ## Documents -/

namespace Document

/-- The operations that make the skeleton. -/
def skeleton : List Operation :=
  [.createElement "html", .createElement "head", .createElement "body", .append ⟨0⟩ ⟨1⟩,
    .append ⟨1⟩ ⟨2⟩, .append ⟨1⟩ ⟨3⟩]

theorem tree_new : new.tree = Tree.new.after skeleton := by decide +kernel

/-- The operations that append a container, which is the node `div`. -/
def container (body div : NodeId) (id : String) : List Operation :=
  [.createElement "div", .setId div id, .append body div]

/-- A container is created, gets its id and is appended to the body. -/
theorem tree_appendContainer {d : Document} (h : d.tree.Reachable)
    (hbody : (d.tree.element? d.body).isSome) (id : String) :
    (d.appendContainer id).2.tree = d.tree.after (container d.body ⟨d.tree.size⟩ id) := by
  have hintern := NameTable.intern_of_find?_eq_some (NameTable.find?_eq_some_iff.2 h.name?_id)
  obtain ⟨t, ht⟩ : ∃ t, (d.tree.createElement "div").2 = t := ⟨_, rfl⟩
  have hreach : t.Reachable := ht ▸ h.run (.createElement "div")
  -- the new tree knows the name `id` as well, so setting the attribute meets no new name
  have hintern' := NameTable.intern_of_find?_eq_some
    (NameTable.find?_eq_some_iff.2 hreach.name?_id)
  have hset : t.setAttribute ⟨d.tree.size⟩ "id" id =
      t.updateElement ⟨d.tree.size⟩ fun e =>
        { e with id := some id }.setAttribute ⟨15⟩ id := by
    rw [Tree.setAttribute_eq, Tree.withName, hintern']
    rfl
  obtain ⟨tag, attributes, selectedIndex, hlabel⟩ := Tree.isSome_element?_iff.1 hbody
  obtain ⟨happend, -⟩ := Tree.append_division h.wellFormed hlabel rfl id
    (congrArg (fun t : Tree => (t.setAttribute ⟨d.tree.size⟩ "id" id).2) ht)
  calc (d.appendContainer id).2.tree
      = (t.updateElement ⟨d.tree.size⟩ fun e =>
          { e with id := some id }.setAttribute ⟨15⟩ id).2.attach d.body ⟨d.tree.size⟩ := by
        rw [appendContainer, hintern, ← ht]
        rfl
    _ = (t.setAttribute ⟨d.tree.size⟩ "id" id).2.attach d.body ⟨d.tree.size⟩ := by rw [hset]
    _ = ((t.setAttribute ⟨d.tree.size⟩ "id" id).2.append d.body ⟨d.tree.size⟩).2 := by
        rw [happend]
    _ = d.tree.after (container d.body ⟨d.tree.size⟩ id) := by rw [← ht]; rfl

theorem body_appendContainer (d : Document) (id : String) :
    (d.appendContainer id).2.body = d.body := rfl

/-- **A document's tree is reached by the operations of trees**, and its body stays an element. -/
theorem Reachable.tree {d : Document} (h : d.Reachable) :
    d.tree.Reachable ∧ (d.tree.element? d.body).isSome := by
  induction h with
  | new =>
    refine ⟨?_, by decide +kernel⟩
    rw [tree_new]
    exact Tree.Reachable.new.after skeleton
  | run op _ ih => exact ⟨ih.1.run op, Tree.isSome_element?_run ih.2 op⟩
  | @appendContainer d id _ ih =>
    rw [tree_appendContainer ih.1 ih.2, body_appendContainer]
    exact ⟨ih.1.after _, Tree.isSome_element?_after ih.2 _⟩

end Document

/-! ## Links -/

namespace Tree

/-- A tree that came about by operations, be it by itself or as the tree of a document. -/
def Built (t : Tree) : Prop := t.Reachable ∨ ∃ d : Document, d.Reachable ∧ d.tree = t

theorem Built.reachable {t : Tree} (h : t.Built) : t.Reachable := by
  rcases h with h | ⟨d, hd, rfl⟩
  · exact h
  · exact hd.tree.1

/-- All that the links at a node and among its children say of a list of its children. -/
structure ListedChildren (t : Tree) (p : NodeId) (node : Node) (cs : List NodeId) : Prop
    extends t.HasChildren p node cs where
  ends : node.lastChild = cs.getLast?
  /-- Nothing comes before the first child. -/
  first : ∀ c, cs.head? = some c → (t.get? c).bind Node.previous = none
  /-- Nothing comes after the last child. -/
  last : ∀ c, cs.getLast? = some c → (t.get? c).bind Node.next = none

/-- The links of a tree agree, and the walk along the children of a node lists them all. -/
structure LinksAgree (t : Tree) : Prop extends t.WellLinked where
  children : ∀ {p node}, t.get? p = some node → t.ListedChildren p node (t.children p)

/-- **However a tree came about, its links agree.** -/
theorem linksAgree_of_built {t : Tree} (h : t.Built) : t.LinksAgree := by
  have hlinked := h.reachable.wellFormed.toWellLinked
  refine { hlinked with children := fun {p node} hp => ?_ }
  have hchildren := hlinked.hasChildren_children hp
  refine
    { hchildren with
      ends := hchildren.lastChild_eq
      first := fun c hc => ?_
      last := fun c hc => ?_ }
  · refine hchildren.backward.link_getLast? ?_
    rw [List.getLast?_reverse, hc]
  · exact hchildren.forward.link_getLast? hc

/-- A text in a paragraph in a division, put together from below, with appends in between that
would make circles or go below the text. -/
def nested : List Operation :=
  [.createElement "div", .createElement "p", .createText "a", .createText "b", .append ⟨2⟩ ⟨3⟩,
    .append ⟨1⟩ ⟨2⟩, .append ⟨2⟩ ⟨1⟩, .append ⟨3⟩ ⟨4⟩, .append ⟨2⟩ ⟨4⟩, .append ⟨9⟩ ⟨1⟩]

theorem linksAgree_nested :
    (new.after nested).Built ∧ (new.after nested).LinksAgree ∧
      (new.after nested).children ⟨2⟩ = [⟨3⟩, ⟨4⟩] :=
  have hbuilt : (new.after nested).Built := .inl (Reachable.new.after nested)
  ⟨hbuilt, linksAgree_of_built hbuilt, by decide +kernel⟩

end Tree

end PageBuilder.Dom
