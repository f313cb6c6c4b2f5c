import PageBuilder.Proofs.Dom.Refusals
import PageBuilder.Proofs.Dom.Texts
import PageBuilder.Proofs.Markup.Roses

/-!
# Markup of equal views

Two trees can show the same at two nodes and differ in everything else: in the order in which their
nodes came about, in the numbers of nodes and names, in the operations that were refused, in what is
elsewhere. Whatever is written of the two nodes is the same nevertheless, in every layout
(`written_eq_of_view_eq`).
-/

namespace PageBuilder.Markup

open Dom

variable {t t' : Tree} {n n' : NodeId}

/-- **What is written of a node depends on what it shows alone**: its markup, the markup of its
content and its text, however the two trees came about. -/
theorem written_eq_of_view_eq (ht : t.Built) (ht' : t'.Built) (hview : t.view n = t'.view n') :
    (∀ layout, outer layout t n = outer layout t' n') ∧
      (∀ layout, inner layout t n = inner layout t' n') ∧
      t.textContent n = t'.textContent n' := by
  have h := ht.reachable.wellFormed
  have h' := ht'.reachable.wellFormed
  have hbelow := h.toWellLinked.childViews_eq_of_view_eq h'.toWellLinked hview
  refine ⟨fun layout => ?_, fun layout => ?_, ?_⟩
  · rw [outer_eq h, outer_eq h', hview]
  · rw [inner_eq h, inner_eq h', hbelow]
  · rw [Tree.textContent_eq h.toWellLinked, Tree.textContent_eq h'.toWellLinked, hview]

/-- A paragraph with a class and a text in a division, put together from above. -/
def fromAbove : Tree :=
  Tree.new.after [.createElement "div", .createElement "p", .createText "a",
    .setAttribute ⟨2⟩ "class" "b", .append ⟨1⟩ ⟨2⟩, .append ⟨2⟩ ⟨3⟩]

/-- The same put together from below, in a tree that has met other names before, and between nodes
and operations that do not matter to it. -/
def fromBelow : Tree :=
  (Tree.new.withName "rel").after [.createText "a", .createElement "hr", .createElement "p",
    .append ⟨3⟩ ⟨1⟩, .setAttribute ⟨9⟩ "title" "c", .createElement "div", .append ⟨4⟩ ⟨3⟩,
    .append ⟨3⟩ ⟨4⟩, .setAttribute ⟨3⟩ "class" "b"]

/-- Two ways to the same paragraph, in which the numbers of its nodes and names differ. -/
theorem written_eq_fromBelow :
    fromAbove.Built ∧ fromBelow.Built ∧ fromAbove.view ⟨1⟩ = fromBelow.view ⟨4⟩ ∧
      fromAbove.names.find? "class" ≠ fromBelow.names.find? "class" ∧
      outer .compact fromAbove ⟨1⟩ = "<div><p class=\"b\">a</p></div>" ∧
      (∀ layout, outer layout fromAbove ⟨1⟩ = outer layout fromBelow ⟨4⟩) ∧
      (∀ layout, inner layout fromAbove ⟨1⟩ = inner layout fromBelow ⟨4⟩) ∧
      fromAbove.textContent ⟨1⟩ = fromBelow.textContent ⟨4⟩ :=
  have habove : fromAbove.Built := .inl (Tree.Reachable.new.after _)
  have hbelow : fromBelow.Built := .inl ((Tree.Reachable.new.withName "rel").after _)
  have hview : fromAbove.view ⟨1⟩ = fromBelow.view ⟨4⟩ := by decide +kernel
  ⟨habove, hbelow, hview, by decide +kernel, by decide +kernel,
    written_eq_of_view_eq habove hbelow hview⟩

end PageBuilder.Markup
