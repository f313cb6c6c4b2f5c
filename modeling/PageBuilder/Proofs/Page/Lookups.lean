import PageBuilder.Page.Compile
import PageBuilder.Proofs.Dom.DocumentOrder
import PageBuilder.Proofs.Page.Growth

/-!
# Looking ids up

An element's id is kept apart from its attributes, and setting an attribute and appending a
container each see to that by themselves. A document is searched along its links for an id that is
kept. Still, what is found is the first element in document order whose attribute says so, and
nothing only if there is none (`findsFirst`): in every document that operations lead to, and so on
every page.
-/

namespace PageBuilder

open Dom

namespace Dom

/-- Looking an id up in a document finds the first of the nodes below the root, in document order,
whose `id` attribute it is. -/
structure Document.FindsFirst (d : Document) : Prop where
  /-- The id that an element keeps is that of its attribute, if it has one. -/
  id_eq : ∀ {n e}, d.tree.element? n = some e → e.id = d.tree.attribute? n "id"
  /-- In document order, a node stands in front of what is below it, and that in front of what comes
  after the node. -/
  preorder_eq : ∀ n, d.tree.preorder n = n :: (d.tree.children n).flatMap d.tree.preorder
  nodup_preorder : (d.tree.preorder .root).Nodup
  elementById?_eq : ∀ id, d.elementById? id =
    (d.tree.preorder .root).find? fun n => d.tree.attribute? n "id" = some id
  eq_none_iff : ∀ id, d.elementById? id = none ↔
    ∀ n, d.tree.Above .root n → d.tree.attribute? n "id" ≠ some id

namespace Tree

variable {t t' : Tree}

/-- The root is no element, so it has no attributes. -/
theorem WellLinked.attribute?_root (h : t.WellLinked) (name : String) :
    t.attribute? .root name = none := by
  obtain ⟨node, hroot, -⟩ := h.root
  have hnone : t.element? .root = none := by
    rw [element?, hroot, Option.bind_some, Node.element?, (h.document_iff hroot).2 rfl]
  exact attribute?_of_element?_eq_none hnone name

/-- A search from the root finds the first node that carries the id. -/
theorem Reachable.findId_root_eq (h : t.Reachable) (id : String) :
    t.findId id t.size .root =
      (t.preorder .root).find? fun n => t.attribute? n "id" = some id := by
  have hlinked := h.wellFormed.toWellLinked
  rw [hlinked.findId_eq id (Nat.sub_le _ _), hlinked.preorder_eq, List.find?_cons,
    hlinked.attribute?_root]
  simp only [h.id_eq_attribute?]
  rfl

end Tree

theorem Document.findsFirst_of_tree {d : Document} (h : d.tree.Reachable) : d.FindsFirst where
  id_eq := fun {n e} he => by
    rw [← h.id_eq_attribute?, he, Option.bind_some]
  preorder_eq := h.wellFormed.toWellLinked.preorder_eq
  nodup_preorder := h.wellFormed.toWellLinked.nodup_preorder .root
  elementById?_eq := h.findId_root_eq
  eq_none_iff := fun id => by
    have hlinked := h.wellFormed.toWellLinked
    rw [elementById?, h.findId_root_eq, List.find?_eq_none]
    simp only [hlinked.mem_preorder_iff, decide_eq_true_eq]
    constructor
    · exact fun hall n hn => hall n (.inr hn)
    · rintro hall n (rfl | hn)
      · rw [hlinked.attribute?_root]
        exact fun heq => by cases heq
      · exact hall n hn

/-- Operations on the tree of a document are operations on the document. -/
theorem Document.Reachable.after {d : Document} (h : d.Reachable) (ops : List Operation) :
    { d with tree := d.tree.after ops }.Reachable := by
  induction ops generalizing d with
  | nil => exact h
  | cons op ops ih => exact ih (h.run op)

theorem Document.Reachable.of_granted {d : Document} {t : Tree} (h : d.Reachable)
    (hgranted : Relation.ReflTransGen Tree.Grants d.tree t) : { d with tree := t }.Reachable := by
  induction hgranted with
  | refl => exact h
  | tail _ hop ih =>
    obtain ⟨op, hop⟩ := hop
    have hrun := ih.run op
    rwa [hop] at hrun

end Dom

/-- The document of a page is one that operations lead to. -/
theorem reachable_compile (settings : Settings) (xs : List Descriptor) :
    (compile settings xs).1.document.Reachable := by
  have hwhole := Draft.whole_after settings xs
  have hshows := Draft.shows_after settings xs
  have hstart : (Draft.start settings).document.Reachable :=
    Document.Reachable.new.appendContainer settings.rootId
  -- the skeleton of a page is where it was at the start
  have hdocument : { (Draft.start settings).document with
      tree := (Draft.after settings xs).document.tree } = (compile settings xs).1.document := by
    show _ = (Draft.after settings xs).document
    have hhtml := hshows.html_eq
    have hhead : (Draft.after settings xs).document.head = ⟨2⟩ := hshows.parent_eq .head
    have hbody := hwhole.body_eq
    generalize (Draft.after settings xs).document = d at hhtml hhead hbody ⊢
    obtain ⟨tree, html, head, body⟩ := d
    cases hhtml
    cases hhead
    cases hbody
    rfl
  rw [← hdocument]
  exact hstart.of_granted hwhole.extends_start.granted

/-- **An id is looked up in document order.** In every document that operations lead to, and on
every page, each element keeps the id that its attribute says; what is found for an id is the first
node below the root, in document order, that has it as its attribute, and nothing exactly if no node
below the root has it. -/
theorem findsFirst :
    (∀ d : Document, d.Reachable → d.FindsFirst) ∧
      ∀ settings xs, (compile settings xs).1.document.FindsFirst :=
  ⟨fun _ h => Document.findsFirst_of_tree h.tree.1, fun settings xs =>
    Document.findsFirst_of_tree (reachable_compile settings xs).tree.1⟩

/-- A document with three paragraphs of the same id. The second one is inside a container, which
stands in front of the first one, and the third one is nowhere. -/
def sameIds : Document :=
  let d := (Document.new.appendContainer "b").2
  { d with
    tree := d.tree.after [.createElement "p", .createElement "p", .createElement "p",
      .setId ⟨5⟩ "a", .setAttribute ⟨6⟩ "id" "a", .setId ⟨7⟩ "a", .append ⟨3⟩ ⟨5⟩,
      .append ⟨4⟩ ⟨6⟩] }

/-- An input whose action is written to its `id`, and a paragraph with that id behind it. -/
def overwrittenId : List Descriptor :=
  [.element (((Record.ofType "input").set "action" (.string "a")).set "action_type"
      (.string "id")),
    .element (((Record.ofType "text").set "id" (.string "a")).set "text" (.string "b"))]

theorem findsFirst_sameIds :
    sameIds.Reachable ∧ sameIds.elementById? "a" = some ⟨6⟩ ∧
      sameIds.elementById? "b" = some ⟨4⟩ ∧ sameIds.elementById? "c" = none ∧
      (compile {} overwrittenId).1.document.elementById? "a" = some ⟨5⟩ := by
  have hreachable : sameIds.Reachable :=
    (Document.Reachable.new.appendContainer "b").after _
  have hfinds := findsFirst.1 sameIds hreachable
  have hpage := findsFirst.2 {} overwrittenId
  refine ⟨hreachable, ?_, ?_, ?_, ?_⟩
  · rw [hfinds.elementById?_eq]
    decide +kernel
  · rw [hfinds.elementById?_eq]
    decide +kernel
  · rw [hfinds.elementById?_eq]
    decide +kernel
  · rw [hpage.elementById?_eq]
    decide +kernel

end PageBuilder
