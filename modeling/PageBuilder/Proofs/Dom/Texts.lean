import PageBuilder.Proofs.Dom.Views

/-!
# Texts

The text of a node is collected along the links of its tree, as deep as the tree can be. It is the
text of what the node shows (`textContent_eq`).
-/

namespace PageBuilder.Dom

namespace Rose

mutual

/-- All text at and below a node, in document order. -/
def textContent : Rose → String
  | document children => textContents children
  | element _ _ _ children => textContents children
  | text s => s

/-- All text at and below nodes side by side. -/
def textContents : List Rose → String
  | [] => ""
  | r :: rest => textContent r ++ textContents rest

end

theorem textContents_eq (rs : List Rose) : textContents rs = String.join (rs.map textContent) := by
  induction rs with
  | nil => rfl
  | cons r rest ih => rw [textContents, ih, List.map_cons, String.join_cons]

end Rose

namespace Tree

variable {t : Tree} {n : NodeId}

theorem textWithin_eq (h : t.WellLinked) {levels : ℕ} (hlevels : t.size - t.depth n ≤ levels) :
    t.textWithin levels n = (t.view n).elim "" Rose.textContent := by
  induction levels generalizing n with
  | zero =>
    have hview : t.view n = none := (h.viewWithin_eq_view hlevels).symm
    rw [hview]
    rfl
  | succ levels ih =>
    -- one level fewer is enough for the children
    have hchildren : (t.children n).map (t.textWithin levels) =
        (t.childViews n).map Rose.textContent := by
      refine map_eq_map_views fun c hc => ?_
      obtain ⟨r, hr⟩ := h.exists_view_of_mem hc
      have hparent := h.mem_children_iff.1 hc
      have hdeeper := h.grounded.depth_lt_depth hparent
      have hsize := h.grounded.depth_lt_size (h.parent_lt hparent)
      exact ⟨r, hr, by rw [ih (by omega), hr]; rfl⟩
    rw [textWithin, hchildren, h.view_eq, label?]
    cases hn : t.get? n with
    | none =>
      rw [childViews, children_of_get?_eq_none hn]
      rfl
    | some node =>
      rw [Option.bind_some, Node.text?, Option.map_some, Option.map_some]
      cases node.content <;> simp [Content.label, Rose.ofLabel, Rose.textContent,
        Rose.textContents_eq]

/-- **The text of a node is the text of what it shows.** -/
theorem textContent_eq (h : t.WellLinked) (n : NodeId) :
    t.textContent n = (t.view n).elim "" Rose.textContent :=
  textWithin_eq h (Nat.sub_le _ _)

end Tree

end PageBuilder.Dom
