import Mathlib.Data.Set.Card
import Mathlib.Logic.Relation
import PageBuilder.Dom.Tree

/-!
# Ancestors

A node is above another if it is met on the way up from there. In a tree whose parent links stay
inside and never run in a circle (`Grounded`), each node has fewer nodes above it than the tree has
nodes (`depth_lt_size`), so every walk up ends within as many steps as it is given, and
`Tree.isAncestor` decides what it is meant to (`isAncestor_iff`).

The depth of a node is also the measure on which everything that walks down a tree recurs.
-/

namespace PageBuilder.Dom.Tree

/-- `t.Above a n`: the node `a` is met on the way up from `n`, which is not itself on the way. -/
def Above (t : Tree) : NodeId → NodeId → Prop :=
  Relation.TransGen fun a n => t.parent? n = some a

/-- How many nodes are above a node. -/
noncomputable def depth (t : Tree) (n : NodeId) : ℕ := {a | t.Above a n}.ncard

/-- Every parent is a node of the tree, and no node is above itself. -/
structure Grounded (t : Tree) : Prop where
  parent_lt : ∀ {n p}, t.parent? n = some p → p.index < t.size
  acyclic : ∀ n, ¬ t.Above n n

variable {t : Tree} {a n p : NodeId}

theorem get?_isSome_iff : (t.get? n).isSome ↔ n.index < t.size := by
  simp [get?, size]

theorem get?_eq_none_iff : t.get? n = none ↔ t.size ≤ n.index := by
  simp [get?, size]

theorem lt_size_of_get? {node : Node} (h : t.get? n = some node) : n.index < t.size :=
  get?_isSome_iff.1 (by rw [h]; rfl)

theorem parent?_of_get? {node : Node} (h : t.get? n = some node) : t.parent? n = node.parent := by
  rw [parent?, h, Option.bind_some]

theorem exists_get?_of_parent? (h : t.parent? n = some p) :
    ∃ node, t.get? n = some node ∧ node.parent = some p :=
  Option.bind_eq_some_iff.1 h

/-! ## The way up -/

theorem Above.single (h : t.parent? n = some p) : t.Above p n := Relation.TransGen.single h

theorem Above.trans {b : NodeId} (hab : t.Above a b) (hbn : t.Above b n) : t.Above a n :=
  Relation.TransGen.trans hab hbn

/-- Whatever is above a node is its parent or above its parent. -/
theorem above_iff : t.Above a n ↔ ∃ p, t.parent? n = some p ∧ (a = p ∨ t.Above a p) := by
  constructor
  · intro h
    obtain ⟨p, hap, hp⟩ := Relation.TransGen.tail'_iff.1 h
    rcases Relation.reflTransGen_iff_eq_or_transGen.1 hap with rfl | hap
    · exact ⟨p, hp, .inl rfl⟩
    · exact ⟨p, hp, .inr hap⟩
  · rintro ⟨p, hp, rfl | hap⟩
    · exact .single hp
    · exact hap.trans (.single hp)

theorem not_above_of_parent?_eq_none (h : t.parent? n = none) : ¬ t.Above a n := by
  rw [above_iff]
  rintro ⟨p, hp, -⟩
  rw [h] at hp
  cases hp

/-- A node that is nobody's parent is above nothing. -/
theorem not_above_of_childless (h : ∀ c, t.parent? c ≠ some a) : ¬ t.Above a n := by
  intro ha
  obtain ⟨c, hc, -⟩ := Relation.TransGen.head'_iff.1 ha
  exact h c hc

/-- If parents change at no node but `c`, then the ways up are the old ones and those that pass
through `c` to its new parent. -/
theorem above_or_of_parent? {t' : Tree} {c : NodeId}
    (h : ∀ m, t'.parent? m = if m = c then some p else t.parent? m) (ha : t'.Above a n) :
    t.Above a n ∨ ((a = p ∨ t.Above a p) ∧ (n = c ∨ t.Above c n)) := by
  induction ha with
  | @single n hn =>
    rw [h] at hn
    split at hn
    · exact .inr ⟨.inl (Option.some.inj hn).symm, .inl ‹_›⟩
    · exact .inl (.single hn)
  | @tail b n _ hn ih =>
    rw [h] at hn
    split at hn
    · rename_i hnc
      obtain rfl := Option.some.inj hn
      rcases ih with ih | ⟨ih, -⟩
      · exact .inr ⟨.inr ih, .inl hnc⟩
      · exact .inr ⟨ih, .inl hnc⟩
    · rcases ih with ih | ⟨ih, rfl | hcb⟩
      · exact .inl (ih.trans (.single hn))
      · exact .inr ⟨ih, .inr (.single hn)⟩
      · exact .inr ⟨ih, .inr (hcb.trans (.single hn))⟩

/-! ## Depth -/

theorem finite_indices (k : ℕ) : {n : NodeId | n.index < k}.Finite := by
  refine ((Set.finite_lt_nat k).image NodeId.mk).subset ?_
  rintro ⟨i⟩ hi
  exact ⟨i, hi, rfl⟩

theorem ncard_indices (k : ℕ) : {n : NodeId | n.index < k}.ncard = k := by
  have himage : {n : NodeId | n.index < k} = NodeId.mk '' {i | i < k} := by
    ext ⟨i⟩
    simp
  rw [himage, Set.ncard_image_of_injective _ fun i j hij => NodeId.mk.inj hij]
  have hset : {i | i < k} = ((Finset.range k : Finset ℕ) : Set ℕ) := by
    ext i
    simp
  rw [hset, Set.ncard_coe_finset, Finset.card_range]

namespace Grounded

variable (h : t.Grounded)
include h

theorem lt_size_of_above (ha : t.Above a n) : a.index < t.size := by
  obtain ⟨c, hc, -⟩ := Relation.TransGen.head'_iff.1 ha
  exact h.parent_lt hc

theorem finite_above (n : NodeId) : {a | t.Above a n}.Finite :=
  (finite_indices t.size).subset fun _ ha => h.lt_size_of_above ha

/-- A child is deeper than its parent. -/
theorem depth_lt_depth (hp : t.parent? n = some p) : t.depth p < t.depth n := by
  refine Set.ncard_lt_ncard ⟨fun a ha => ?_, fun hsub => ?_⟩ (h.finite_above n)
  · exact Above.trans ha (.single hp)
  · exact h.acyclic p (hsub (Above.single hp))

theorem depth_lt_size (hn : n.index < t.size) : t.depth n < t.size := by
  have hself : n ∉ {a | t.Above a n} := h.acyclic n
  have hcard := Set.ncard_insert_of_notMem hself (h.finite_above n)
  have hle : (insert n {a | t.Above a n}).ncard ≤ {m : NodeId | m.index < t.size}.ncard := by
    refine Set.ncard_le_ncard ?_ (finite_indices t.size)
    rintro a (rfl | ha)
    · exact hn
    · exact h.lt_size_of_above ha
  rw [ncard_indices, hcard] at hle
  exact hle

/-- What holds of a node as soon as it holds of all its children holds of every node. -/
theorem induction {motive : NodeId → Prop}
    (step : ∀ n, (∀ c, t.parent? c = some n → motive c) → motive n) (n : NodeId) : motive n := by
  -- children are deeper, and no depth reaches the size
  induction hk : t.size - t.depth n using Nat.strong_induction_on generalizing n with
  | _ k ih =>
    refine step n fun c hc => ?_
    have hdeeper := h.depth_lt_depth hc
    obtain ⟨node, hnode, -⟩ := exists_get?_of_parent? hc
    have hsize := h.depth_lt_size (lt_size_of_get? hnode)
    exact ih _ (by omega) c rfl

/-! ## Climbing -/

theorem climbs_iff (steps : ℕ) (hn : t.depth n < steps) :
    t.climbs a steps (some n) = true ↔ n = a ∨ t.Above a n := by
  induction steps generalizing n with
  | zero => omega
  | succ steps ih =>
    rw [climbs, Bool.or_eq_true, beq_iff_eq, above_iff]
    refine or_congr_right ?_
    cases hp : t.parent? n with
    | none => cases steps <;> simp [climbs]
    | some p =>
      have hdeeper := h.depth_lt_depth hp
      rw [ih (by omega)]
      simp [eq_comm]

/-- The test for ancestors finds all of them and nothing else. -/
theorem isAncestor_iff : t.isAncestor a n = true ↔ t.Above a n := by
  rw [isAncestor, above_iff]
  cases hp : t.parent? n with
  | none => cases t.size <;> simp [climbs]
  | some p =>
    rw [h.climbs_iff t.size (h.depth_lt_size (h.parent_lt hp))]
    simp [eq_comm]

end Grounded

end PageBuilder.Dom.Tree
