import PageBuilder.Proofs.Dom.Changes
import PageBuilder.Proofs.Dom.Ids

/-!
# Document order

`Tree.preorder` lists a node and all that is below it, each node in front of what is below it, and
that in front of the next sibling. Where all links agree, the list holds what is below the node and
nothing else (`mem_preorder_iff`), and holds it once (`nodup_preorder`).

A search for an id goes down the children one by one, and deeper before it goes on to the next. It
finds the first node in the list that carries the id (`findId_eq`).
-/

namespace PageBuilder.Dom.Tree

variable {t : Tree} {n m p c d : NodeId} {j k : ℕ}

/-- A node and what is below it in document order, as deep as a number of levels. -/
def preorderWithin (t : Tree) : ℕ → NodeId → List NodeId
  | 0, _ => []
  | levels + 1, n => n :: (t.children n).flatMap (t.preorderWithin levels)

/-- A node and what is below it, in document order. -/
def preorder (t : Tree) (n : NodeId) : List NodeId := t.preorderWithin t.size n

/-- Whatever is below a node is one of its children or below one. -/
theorem above_iff_exists_child :
    t.Above n m ↔ ∃ c, t.parent? c = some n ∧ (m = c ∨ t.Above c m) := by
  rw [Above, Relation.TransGen.head'_iff]
  simp only [Relation.reflTransGen_iff_eq_or_transGen]

namespace WellLinked

variable (h : t.WellLinked)
include h

/-- A number that refers to no node has nothing above it, so it is not deep either. -/
theorem depth_lt_size (n : NodeId) : t.depth n < t.size := by
  by_cases hn : n.index < t.size
  · exact h.grounded.depth_lt_size hn
  · have hnone : t.parent? n = none := by
      rw [parent?, get?_eq_none_iff.2 (Nat.le_of_not_lt hn), Option.bind_none]
    have hempty : {a | t.Above a n} = ∅ :=
      Set.eq_empty_of_forall_notMem fun a => not_above_of_parent?_eq_none hnone
    rw [depth, hempty, Set.ncard_empty]
    exact Nat.zero_lt_of_lt h.root_lt

/-- More levels than there are nodes below list nothing more. -/
theorem preorderWithin_eq (hj : t.size - t.depth n ≤ j) (hk : t.size - t.depth n ≤ k) :
    t.preorderWithin j n = t.preorderWithin k n := by
  have hdepth := h.depth_lt_size n
  induction j generalizing n k with
  | zero => omega
  | succ j ih =>
    obtain ⟨k, rfl⟩ := Nat.exists_eq_add_one_of_ne_zero (n := k) (by omega)
    rw [preorderWithin, preorderWithin]
    congr 1
    refine List.flatMap_congr fun c hc => ?_
    have hdeeper := h.grounded.depth_lt_depth (h.mem_children_iff.1 hc)
    exact ih (by omega) (by omega) (h.depth_lt_size c)

/-- **Document order**: a node, and then all that is below each of its children, in order. -/
theorem preorder_eq (n : NodeId) :
    t.preorder n = n :: (t.children n).flatMap t.preorder := by
  have hmore : t.preorder n = t.preorderWithin (t.size + 1) n :=
    h.preorderWithin_eq (Nat.sub_le _ _) (by omega)
  rw [hmore, preorderWithin]
  rfl

theorem mem_preorder_iff : m ∈ t.preorder n ↔ m = n ∨ t.Above n m := by
  induction n using h.grounded.induction with
  | step n ih =>
    rw [h.preorder_eq, List.mem_cons, List.mem_flatMap, above_iff_exists_child]
    refine or_congr_right (exists_congr fun c => ?_)
    rw [h.mem_children_iff]
    exact and_congr_right fun hc => ih c hc

/-- Nothing is below two children of a node. -/
theorem eq_of_below (hc : t.parent? c = some p) (hd : t.parent? d = some p)
    (hcm : m = c ∨ t.Above c m) (hdm : m = d ∨ t.Above d m) : c = d := by
  have hcd := h.not_above_sibling hc hd
  have hdc := h.not_above_sibling hd hc
  rcases hcm with rfl | hcm
  · exact hdm.resolve_right hdc
  · -- going up from the node, one meets the first of the two before the other or not at all
    induction hcm with
    | single hm =>
      rcases hdm with rfl | hdm
      · exact absurd (Above.single hm) hcd
      · obtain ⟨q, hq, hdq⟩ := above_iff.1 hdm
        cases hm.symm.trans hq
        exact (hdq.resolve_right hdc).symm
    | tail hcb hm ih =>
      rcases hdm with rfl | hdm
      · exact absurd (Above.trans hcb (.single hm)) hcd
      · obtain ⟨q, hq, hdq⟩ := above_iff.1 hdm
        cases hm.symm.trans hq
        exact ih (hdq.imp_left Eq.symm)

/-- No node is listed twice. -/
theorem nodup_preorder (n : NodeId) : (t.preorder n).Nodup := by
  induction n using h.grounded.induction with
  | step n ih =>
    rw [h.preorder_eq, List.nodup_cons, List.mem_flatMap, List.nodup_flatMap]
    refine ⟨?_, fun c hc => ih c (h.mem_children_iff.1 hc), ?_⟩
    · rintro ⟨c, hc, hn⟩
      have hparent := h.mem_children_iff.1 hc
      exact h.acyclic n (above_iff_exists_child.2 ⟨c, hparent, h.mem_preorder_iff.1 hn⟩)
    · refine (h.nodup_children n).imp_of_mem fun {c d} hc hd hne => ?_
      intro m hcm hdm
      exact hne (h.eq_of_below (h.mem_children_iff.1 hc) (h.mem_children_iff.1 hd)
        (h.mem_preorder_iff.1 hcm) (h.mem_preorder_iff.1 hdm))

/-! ## Searching for an id -/

/-- A search for an id finds the first node below that carries it. -/
theorem findId_eq (id : String) {levels : ℕ} (hlevels : t.size - t.depth n ≤ levels) :
    t.findId id levels n = ((t.children n).flatMap t.preorder).find? fun c =>
      (t.element? c).bind Element.id = some id := by
  have hdepth := h.depth_lt_size n
  induction levels generalizing n with
  | zero => omega
  | succ levels ih =>
    rw [findId, List.find?_flatMap, ← List.head?_filterMap, ← List.head?_filterMap]
    refine congrArg List.head? (List.filterMap_congr fun c hc => ?_)
    have hdeeper := h.grounded.depth_lt_depth (h.mem_children_iff.1 hc)
    rw [h.preorder_eq, List.find?_cons, ih (by omega) (h.depth_lt_size c)]
    by_cases hid : (t.element? c).bind Element.id = some id <;> simp [hid]

end WellLinked

end PageBuilder.Dom.Tree
