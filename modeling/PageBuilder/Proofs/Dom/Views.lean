import PageBuilder.Proofs.Dom.Operations

/-!
# Views

`Tree.view` is given as many levels as the tree has nodes. In a tree whose links agree that is
always enough, so a view satisfies the equation one expects of it (`view_eq`): the label of the
node, above the views of its children.

Views depend on the labels and the children below the node, and on nothing else (`view_congr`).
-/

namespace PageBuilder.Dom

/-- A node with a label, above some nodes. A text has nothing below it. -/
def Rose.ofLabel : Label → List Rose → Rose
  | .document, children => .document children
  | .element tag attributes selectedIndex, children =>
    .element tag attributes selectedIndex children
  | .text s, _ => .text s

/-- The nodes right below a node. -/
def Rose.children : Rose → List Rose
  | document cs | element _ _ _ cs => cs
  | text _ => []

namespace Tree

variable {t t' : Tree} {n n' p c : NodeId} {j k : ℕ}

/-- What is below a node, child by child. -/
def childViews (t : Tree) (n : NodeId) : List Rose := (t.children n).filterMap t.view

theorem viewWithin_succ (t : Tree) (levels : ℕ) (n : NodeId) :
    t.viewWithin (levels + 1) n =
      (t.label? n).map fun l => .ofLabel l ((t.children n).filterMap (t.viewWithin levels)) := by
  rw [viewWithin, label?, Option.map_map]
  congr 1
  funext node
  cases hcontent : node.content <;> simp [hcontent, Content.label, Rose.ofLabel, namedAttributes]

theorem label?_eq_none_iff : t.label? n = none ↔ t.get? n = none := by
  rw [label?, Option.map_eq_none_iff]

/-- More levels than there are nodes below show nothing more. -/
theorem Grounded.viewWithin_eq (h : t.Grounded) (hchildren : ∀ {p c}, c ∈ t.children p →
    t.parent? c = some p) (hj : t.size - t.depth n ≤ j) (hk : t.size - t.depth n ≤ k) :
    t.viewWithin j n = t.viewWithin k n := by
  induction j generalizing n k with
  | zero =>
    -- no level is too few only for a node that is not there
    have hnone : t.get? n = none := by
      by_contra hn
      obtain ⟨node, hn⟩ := Option.ne_none_iff_exists'.1 hn
      have := h.depth_lt_size (lt_size_of_get? hn)
      omega
    cases k with
    | zero => rfl
    | succ k => rw [viewWithin_succ, label?_eq_none_iff.2 hnone, Option.map_none, viewWithin]
  | succ j ih =>
    cases hn : t.get? n with
    | none =>
      rw [viewWithin_succ, label?_eq_none_iff.2 hn, Option.map_none]
      cases k with
      | zero => rfl
      | succ k => rw [viewWithin_succ, label?_eq_none_iff.2 hn, Option.map_none]
    | some node =>
      have hdepth := h.depth_lt_size (lt_size_of_get? hn)
      obtain ⟨k, rfl⟩ := Nat.exists_eq_add_one_of_ne_zero (n := k) (by omega)
      rw [viewWithin_succ, viewWithin_succ]
      have hbelow : (t.children n).filterMap (t.viewWithin j) =
          (t.children n).filterMap (t.viewWithin k) := by
        refine List.filterMap_congr fun c hc => ?_
        have hdeeper := h.depth_lt_depth (hchildren hc)
        exact ih (by omega) (by omega)
      rw [hbelow]

/-- What is the same for a node and for its view is the same for nodes and for their views. -/
theorem map_eq_map_views {α : Type*} {f : NodeId → α} {g : Rose → α} {cs : List NodeId}
    (hf : ∀ c ∈ cs, ∃ r, t.view c = some r ∧ f c = g r) :
    cs.map f = (cs.filterMap t.view).map g := by
  induction cs with
  | nil => rfl
  | cons c cs ih =>
    obtain ⟨r, hr, hfg⟩ := hf c List.mem_cons_self
    rw [List.map_cons, List.filterMap_cons_some hr, List.map_cons, hfg,
      ih fun d hd => hf d (List.mem_cons_of_mem c hd)]

namespace WellLinked

variable (h : t.WellLinked)
include h

theorem viewWithin_eq_view (hk : t.size - t.depth n ≤ k) : t.viewWithin k n = t.view n :=
  h.grounded.viewWithin_eq h.mem_children_iff.1 hk (Nat.sub_le _ _)

/-- **A view is the label of a node above the views of its children.** -/
theorem view_eq (n : NodeId) :
    t.view n = (t.label? n).map fun l => .ofLabel l (t.childViews n) := by
  rw [← h.viewWithin_eq_view (k := t.size + 1) (by omega), viewWithin_succ]
  rfl

theorem isSome_view (hn : (t.get? n).isSome) : (t.view n).isSome := by
  rwa [h.view_eq, Option.isSome_map, label?, Option.isSome_map]

/-- Whatever has a view is a node, and its view is that of its content. -/
theorem exists_get?_of_view {r : Rose} (hr : t.view n = some r) :
    ∃ node, t.get? n = some node ∧ r = .ofLabel (node.content.label t.names) (t.childViews n) := by
  rw [h.view_eq, Option.map_eq_some_iff] at hr
  obtain ⟨l, hl, rfl⟩ := hr
  obtain ⟨node, hn, rfl⟩ := Option.map_eq_some_iff.1 hl
  exact ⟨node, hn, rfl⟩

/-- What an element shows is its label and what its children show. -/
theorem view_eq_element_iff {tag : String} {attributes : List (String × String)}
    {selectedIndex : Option ℕ} {children : List Rose} :
    t.view n = some (.element tag attributes selectedIndex children) ↔
      t.label? n = some (.element tag attributes selectedIndex) ∧ t.childViews n = children := by
  rw [h.view_eq, Option.map_eq_some_iff]
  constructor
  · rintro ⟨l, hl, hview⟩
    cases l <;> cases hview
    exact ⟨hl, rfl⟩
  · rintro ⟨hl, rfl⟩
    exact ⟨_, hl, rfl⟩

/-- What a node shows right below itself is what its children show. -/
theorem childViews_eq_children {r : Rose} (hr : t.view n = some r) :
    t.childViews n = r.children := by
  obtain ⟨node, hn, rfl⟩ := h.exists_get?_of_view hr
  cases hcontent : node.content with
  | document => rfl
  | element e => rfl
  | text s =>
    have hleaf : node.canHaveChildren = false := by
      simp [Node.canHaveChildren, Node.text?, hcontent]
    rw [childViews, h.children_eq_nil hn hleaf]
    rfl

/-- Nodes that show the same have children that show the same, be they in different trees. -/
theorem childViews_eq_of_view_eq (h' : t'.WellLinked) (hview : t.view n = t'.view n') :
    t.childViews n = t'.childViews n' := by
  cases hr : t.view n with
  | some r =>
    rw [h.childViews_eq_children hr, h'.childViews_eq_children (hview.symm.trans hr)]
  | none =>
    have hmissing : ∀ {t : Tree} {n}, t.WellLinked → t.view n = none → t.childViews n = [] := by
      intro t n h hnone
      rw [h.view_eq, Option.map_eq_none_iff] at hnone
      rw [childViews, children_of_get?_eq_none (label?_eq_none_iff.1 hnone)]
      rfl
    rw [hmissing h hr, hmissing h' (hview.symm.trans hr)]

/-- The children of a node all have views. -/
theorem exists_view_of_mem (hc : c ∈ t.children p) : ∃ r, t.view c = some r := by
  obtain ⟨node, hn, -⟩ := exists_get?_of_parent? (h.mem_children_iff.1 hc)
  exact Option.isSome_iff_exists.1 (h.isSome_view (by rw [hn]; rfl))

/-- What is the same for nodes and for their views is so for the children of a node. -/
theorem map_children_eq {α : Type*} {f : NodeId → α} {g : Rose → α}
    (hfg : ∀ {c r}, t.view c = some r → f c = g r) (n : NodeId) :
    (t.children n).map f = (t.childViews n).map g := by
  refine map_eq_map_views fun c hc => ?_
  obtain ⟨r, hr⟩ := h.exists_view_of_mem hc
  exact ⟨r, hr, hfg hr⟩

theorem any_children_eq {f : NodeId → Bool} {g : Rose → Bool}
    (hfg : ∀ {c r}, t.view c = some r → f c = g r) (n : NodeId) :
    (t.children n).any f = (t.childViews n).any g := by
  have hany := congrArg (List.any · id) (h.map_children_eq hfg n)
  simpa only [List.any_map, Function.id_comp] using hany

/-- Views depend on the labels and the children of what is below, and on nothing else. -/
theorem view_congr (h' : t'.WellLinked) {S : NodeId → Prop}
    (hclosed : ∀ n, S n → ∀ c, t.parent? c = some n → S c)
    (hlabel : ∀ n, S n → t'.label? n = t.label? n)
    (hchildren : ∀ n, S n → t'.children n = t.children n) (hn : S n) :
    t'.view n = t.view n := by
  induction n using h.grounded.induction with
  | step n ih =>
    rw [h.view_eq, h'.view_eq, hlabel n hn]
    congr 1
    funext l
    congr 1
    rw [childViews, childViews, hchildren n hn]
    refine List.filterMap_congr fun c hc => ?_
    have hparent := h.mem_children_iff.1 hc
    exact ih c hparent (hclosed n hn c hparent)

end WellLinked

end Tree

end PageBuilder.Dom
