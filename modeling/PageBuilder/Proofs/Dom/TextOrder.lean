import PageBuilder.Proofs.Dom.Appending
import PageBuilder.Proofs.Dom.DocumentOrder
import PageBuilder.Proofs.Dom.Texts

/-!
# Texts in document order

The text of a node is collected by going down its children, and each of them collects for itself.
Taken together, these are the texts at and below the node in document order, and no other
(`textContent_eq_join`).

Appending writes links in up to three nodes, and still all that it does to texts is that the text of
the child comes after that of its parent (`textContent_append_parent`).
-/

namespace PageBuilder.Dom.Tree

variable {t t' : Tree} {n p c : NodeId} {s : String}

/-- The text at a node by itself. -/
def text? (t : Tree) (n : NodeId) : Option String := (t.get? n).bind Node.text?

theorem join_flatMap {α : Type*} (f : α → List String) (l : List α) :
    String.join (l.flatMap f) = String.join (l.map fun a => String.join (f a)) := by
  induction l with
  | nil => rfl
  | cons a l ih => rw [List.flatMap_cons, String.join_append, ih, List.map_cons, String.join_cons]

/-! ## The texts below a node -/

namespace WellLinked

variable (h : t.WellLinked)
include h

theorem children_of_text? (hs : t.text? n = some s) : t.children n = [] := by
  obtain ⟨node, hn, hs⟩ := Option.bind_eq_some_iff.1 hs
  exact h.children_eq_nil hn (by rw [Node.canHaveChildren, hs]; rfl)

/-- A text is its own text, and any other node has the texts of its children. -/
theorem textContent_eq_getD (n : NodeId) :
    t.textContent n = (t.text? n).getD (String.join ((t.children n).map t.textContent)) := by
  -- with one level more than there are nodes, the children have as many as there are nodes
  have hmore : t.textWithin (t.size + 1) n = (t.view n).elim "" Rose.textContent :=
    textWithin_eq h (by omega)
  rw [textContent_eq h, ← hmore, textWithin, text?]
  cases (t.get? n).bind Node.text? <;> rfl

/-- **The text of a node is made of the texts at and below it, in document order.** -/
theorem textContent_eq_join (n : NodeId) :
    t.textContent n = String.join ((t.preorder n).filterMap t.text?) := by
  induction n using h.grounded.induction with
  | step n ih =>
    rw [h.textContent_eq_getD, h.preorder_eq]
    cases hs : t.text? n with
    | some s => simp [h.children_of_text? hs, hs]
    | none =>
      rw [Option.getD_none, List.filterMap_cons_none hs, List.filterMap_flatMap, join_flatMap]
      refine congrArg String.join (List.map_congr_left fun c hc => ?_)
      exact ih c (h.mem_children_iff.1 hc)

end WellLinked

/-! ## Appending -/

/-- Nodes that show the same have the same text, be they in different trees. -/
theorem textContent_eq_of_view_eq (h : t.WellLinked) (h' : t'.WellLinked)
    (hview : t'.view n = t.view n) : t'.textContent n = t.textContent n := by
  rw [textContent_eq h', hview, textContent_eq h]

/-- What may have children is no text. -/
theorem Attachable.text?_parent (hc : t.Attachable p c) : t.text? p = none := by
  obtain ⟨pnode, hp, hcontainer⟩ := hc.parent
  rw [text?, hp, Option.bind_some]
  simpa [Node.canHaveChildren] using hcontainer

theorem Adopts.text?_eq (ha : t.Adopts t' p c) (n : NodeId) : t'.text? n = t.text? n := by
  have hcontent := ha.content_eq n
  rw [text?, text?]
  cases hn : t.get? n with
  | none =>
    rw [hn, Option.map_none, Option.map_eq_none_iff] at hcontent
    rw [hcontent]
  | some node =>
    rw [hn, Option.map_some, Option.map_eq_some_iff] at hcontent
    obtain ⟨node', hn', hcontent⟩ := hcontent
    rw [hn', Option.bind_some, Option.bind_some, Node.text?, hcontent, Node.text?]

/-- **The text of a child comes after that of its parent** once it is appended. -/
theorem textContent_append_parent (h : t.WellFormed) (hok : (t.append p c).1 = .ok c) :
    (t.append p c).2.textContent p = t.textContent p ++ t.textContent c := by
  have hlinked := h.toWellLinked
  have hlinked' := (h.append p c).toWellLinked
  have hc := attachable_of_append_eq_ok hlinked hok
  have hadopts := adopts_append hlinked hok
  have hold : (t.children p).map (t.append p c).2.textContent =
      (t.children p).map t.textContent := by
    refine List.map_congr_left fun d hd => textContent_eq_of_view_eq hlinked hlinked' ?_
    exact (changedAt_append h hok).view_child_eq h (hlinked.mem_children_iff.1 hd)
  have hnew : (t.append p c).2.textContent c = t.textContent c :=
    textContent_eq_of_view_eq hlinked hlinked' (view_append_eq h hok hc.ne hc.not_above)
  calc (t.append p c).2.textContent p
      = String.join ((t.children p ++ [c]).map (t.append p c).2.textContent) := by
        rw [hlinked'.textContent_eq_getD, hadopts.text?_eq, hc.text?_parent, hadopts.children_eq,
          if_pos rfl, Option.getD_none]
    _ = String.join ((t.children p).map t.textContent) ++ t.textContent c := by
        rw [List.map_append, String.join_append, hold, List.map_singleton, hnew, String.join_cons,
          String.join_nil, String.append_empty]
    _ = t.textContent p ++ t.textContent c := by
        rw [hlinked.textContent_eq_getD p, hc.text?_parent, Option.getD_none]

/-- **The text of a node follows its tree.** However the tree came about, the text of a node is made
of the texts at and below the node in document order, each once, and of nothing else. Appending puts
the text of the child after that of the parent; whatever is neither the parent nor above it keeps
its text. -/
theorem textContent_inOrder (ht : t.Built) :
    (∀ n, t.textContent n = String.join ((t.preorder n).filterMap t.text?) ∧
      t.preorder n = n :: (t.children n).flatMap t.preorder ∧ (t.preorder n).Nodup ∧
      ∀ m, m ∈ t.preorder n ↔ m = n ∨ t.Above n m) ∧
    ∀ p c, (t.append p c).1 = .ok c →
      (t.append p c).2.textContent p = t.textContent p ++ t.textContent c ∧
      ∀ n, n ≠ p → ¬ t.Above n p → (t.append p c).2.textContent n = t.textContent n := by
  have h := ht.reachable.wellFormed
  have hlinked := h.toWellLinked
  refine ⟨fun n => ?_, fun p c hok => ?_⟩
  · exact ⟨hlinked.textContent_eq_join n, hlinked.preorder_eq n, hlinked.nodup_preorder n,
      fun _ => hlinked.mem_preorder_iff⟩
  · refine ⟨textContent_append_parent h hok, fun n hne habove => ?_⟩
    exact textContent_eq_of_view_eq hlinked (h.append p c).toWellLinked
      (view_append_eq h hok hne habove)

/-- The operations that make a paragraph of a text and an emphasized one, and a text apart. -/
def emphasized : List Operation :=
  [.createElement "p", .createText "a", .createElement "em", .createText "b", .createText "c",
    .append ⟨3⟩ ⟨4⟩, .append ⟨1⟩ ⟨2⟩, .append ⟨1⟩ ⟨3⟩]

/-- A text that is appended to what is emphasized comes after it, and the text in front is as
before. -/
theorem textContent_inOrder_emphasized :
    (new.after emphasized).Built ∧ (new.after emphasized).textContent ⟨1⟩ = "ab" ∧
      ((new.after emphasized).append ⟨3⟩ ⟨5⟩).1 = .ok ⟨5⟩ ∧
      ((new.after emphasized).append ⟨3⟩ ⟨5⟩).2.textContent ⟨3⟩ = "b" ++ "c" ∧
      ((new.after emphasized).append ⟨3⟩ ⟨5⟩).2.textContent ⟨2⟩ = "a" := by
  have ht : (new.after emphasized).Built := .inl (Reachable.new.after emphasized)
  have hok : ((new.after emphasized).append ⟨3⟩ ⟨5⟩).1 = .ok ⟨5⟩ := by decide +kernel
  obtain ⟨horder, happend⟩ := textContent_inOrder ht
  obtain ⟨hparent, hother⟩ := happend ⟨3⟩ ⟨5⟩ hok
  have htexts : ∀ n, (new.after emphasized).textContent n = String.join
      (((new.after emphasized).preorder n).filterMap (new.after emphasized).text?) :=
    fun n => (horder n).1
  have habove : ¬ (new.after emphasized).Above ⟨2⟩ ⟨3⟩ := not_above_of_childless fun c hc => by
    have hchildless : (new.after emphasized).children ⟨2⟩ = [] := by decide +kernel
    have hmem := ht.reachable.wellFormed.toWellLinked.mem_children_iff.2 hc
    rw [hchildless] at hmem
    cases hmem
  refine ⟨ht, ?_, hok, ?_, ?_⟩
  · rw [htexts]
    decide +kernel
  · rw [hparent, htexts, htexts]
    decide +kernel
  · rw [hother ⟨2⟩ (by decide) habove, htexts]
    decide +kernel

end PageBuilder.Dom.Tree
