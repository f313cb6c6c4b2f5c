import PageBuilder.Proofs.Dom.Views

/-!
# Changes at a node

Most changes to a tree concern one node: they give it another label or new children, and leave every
other node that was there as it was. `ChangedAt` says so of two trees. Changes at a node can be put
one after another, and changes at a node that the first of them made count as the first
(`ChangedAt.trans_new`). Whatever is neither the node nor above it shows the same before and after
(`ChangedAt.view_eq`).

`Appended` are the changes that append a new node, and `Appended.childViews_eq` says what the parent
shows once changes at the new node are done as well.
-/

namespace PageBuilder.Dom

namespace Tree

variable {t t' t'' : Tree} {n m p c : NodeId} {l : Label} {r : Rose}

/-- A second tree in good order that differs from the first at one node and by new nodes alone. -/
structure ChangedAt (t t' : Tree) (n : NodeId) : Prop where
  wellFormed : t'.WellFormed
  isSome : ∀ {m}, (t.get? m).isSome → (t'.get? m).isSome
  label?_eq : ∀ {m}, m ≠ n → (t.get? m).isSome → t'.label? m = t.label? m
  children_eq : ∀ {m}, m ≠ n → (t.get? m).isSome → t'.children m = t.children m

theorem isSome_label? (t : Tree) (n : NodeId) : (t.label? n).isSome = (t.get? n).isSome := by
  rw [label?, Option.isSome_map]

theorem isSome_of_label? (hl : t.label? n = some l) : (t.get? n).isSome := by
  rw [← isSome_label?, hl]
  rfl

theorem isSome_of_parent? (hp : t.parent? c = some p) : (t.get? c).isSome := by
  obtain ⟨node, hc, -⟩ := exists_get?_of_parent? hp
  rw [hc]
  rfl

/-- A node that is there is not one that is not. -/
theorem ne_of_isSome (hm : (t.get? m).isSome) (hn : t.get? n = none) : m ≠ n := by
  rintro rfl
  rw [hn] at hm
  cases hm

/-- A child is not above its parent, nor is it above another child. -/
theorem WellLinked.not_above_sibling (h : t.WellLinked) (hc : t.parent? c = some p)
    (hm : t.parent? m = some p) : ¬ t.Above c m := by
  rw [above_iff]
  rintro ⟨q, hq, hcq⟩
  obtain rfl := Option.some.inj (hm.symm.trans hq)
  rcases hcq with rfl | hcp
  · exact h.acyclic c (Above.single hc)
  · exact h.acyclic p (Above.trans (.single hc) hcp)

namespace ChangedAt

theorem refl (h : t.WellFormed) (n : NodeId) : t.ChangedAt t n :=
  ⟨h, id, fun _ _ => rfl, fun _ _ => rfl⟩

theorem trans (h : t.ChangedAt t' n) (h' : t'.ChangedAt t'' n) : t.ChangedAt t'' n where
  wellFormed := h'.wellFormed
  isSome := fun hm => h'.isSome (h.isSome hm)
  label?_eq := fun hne hm => (h'.label?_eq hne (h.isSome hm)).trans (h.label?_eq hne hm)
  children_eq := fun hne hm => (h'.children_eq hne (h.isSome hm)).trans (h.children_eq hne hm)

/-- A change at a new node counts as the change that made it. -/
theorem trans_new (h : t.ChangedAt t' p) (hnew : t.get? n = none) (h' : t'.ChangedAt t'' n) :
    t.ChangedAt t'' p where
  wellFormed := h'.wellFormed
  isSome := fun hm => h'.isSome (h.isSome hm)
  label?_eq := fun hp hm =>
    (h'.label?_eq (ne_of_isSome hm hnew) (h.isSome hm)).trans (h.label?_eq hp hm)
  children_eq := fun hp hm =>
    (h'.children_eq (ne_of_isSome hm hnew) (h.isSome hm)).trans (h.children_eq hp hm)

/-- What is neither the changed node nor above it shows what it showed. -/
theorem view_eq (hc : t.ChangedAt t' n) (h : t.WellFormed) (hm : (t.get? m).isSome) (hne : m ≠ n)
    (habove : ¬ t.Above m n) : t'.view m = t.view m := by
  refine h.toWellLinked.view_congr hc.wellFormed.toWellLinked
    (S := fun m => (t.get? m).isSome ∧ m ≠ n ∧ ¬ t.Above m n) ?_
    (fun m hm => hc.label?_eq hm.2.1 hm.1) (fun m hm => hc.children_eq hm.2.1 hm.1)
    ⟨hm, hne, habove⟩
  intro m hm c hparent
  refine ⟨isSome_of_parent? hparent, ?_, fun hcn => hm.2.2 ((Above.single hparent).trans hcn)⟩
  rintro rfl
  exact hm.2.2 (.single hparent)

/-- The children that the changed node had are below it. -/
theorem view_child_eq (hc : t.ChangedAt t' n) (h : t.WellFormed) (hparent : t.parent? c = some n) :
    t'.view c = t.view c := by
  refine hc.view_eq h (isSome_of_parent? hparent) ?_ fun hcn =>
    h.acyclic n (Above.trans (.single hparent) hcn)
  rintro rfl
  exact h.acyclic c (.single hparent)

theorem childViews_self_eq (hc : t.ChangedAt t' n) (h : t.WellFormed)
    (hchildren : t'.children n = t.children n) : t'.childViews n = t.childViews n := by
  rw [childViews, childViews, hchildren]
  exact List.filterMap_congr fun c hmem =>
    hc.view_child_eq h (h.toWellLinked.mem_children_iff.1 hmem)

theorem childViews_eq (hc : t.ChangedAt t' n) (h : t.WellFormed) (hm : (t.get? m).isSome)
    (hne : m ≠ n) (habove : ¬ t.Above m n) : t'.childViews m = t.childViews m := by
  rw [childViews, childViews, hc.children_eq hne hm]
  refine List.filterMap_congr fun c hmem => ?_
  have hparent := h.toWellLinked.mem_children_iff.1 hmem
  refine hc.view_eq h (isSome_of_parent? hparent) ?_ fun hcn =>
    habove ((Above.single hparent).trans hcn)
  rintro rfl
  exact habove (.single hparent)

end ChangedAt

/-! ## Changes of a label -/

/-- A change that gives one node another label and leaves all children as they are. -/
theorem changedAt_of_children (h' : t'.WellFormed)
    (hself : (t.label? n).isSome → (t'.label? n).isSome)
    (hlabel : ∀ m, m ≠ n → t'.label? m = t.label? m) (hchildren : t'.children = t.children) :
    t.ChangedAt t' n where
  wellFormed := h'
  isSome := fun {m} hm => by
    rw [← isSome_label?] at hm ⊢
    by_cases hmn : m = n
    · subst m
      exact hself hm
    · rwa [hlabel m hmn]
  label?_eq := fun hne _ => hlabel _ hne
  children_eq := fun _ _ => by rw [hchildren]

theorem changedAt_setAttribute (h : t.WellFormed) (n : NodeId) (name value : String) :
    t.ChangedAt (t.setAttribute n name value).2 n := by
  have hlabel := label?_setAttribute h.toNamed n name value
  refine changedAt_of_children (h.setAttribute n name value) (fun hn => ?_) (fun m hm => ?_)
    (children_setAttribute h.toWellLinked n name value)
  · rwa [hlabel, if_pos rfl, Option.isSome_map]
  · rw [hlabel, if_neg hm]

/-- Changing an element is a change at its node. -/
theorem changedAt_updateElement {f : Element → Element}
    (h' : (t.updateElement n f).2.WellFormed) (h : t.WellLinked) :
    t.ChangedAt (t.updateElement n f).2 n := by
  refine changedAt_of_children h' (fun hn => ?_) (fun m hm => ?_) (children_updateElement h n f)
  · rwa [isSome_label?, get?_updateElement, Option.isSome_map, ← isSome_label?]
  · rw [label?, label?, get?_updateElement, names_updateElement]
    simp only [if_neg hm, Option.map_id']

theorem changedAt_setSelectedIndex (h : t.WellFormed) (n : NodeId) (index : ℕ) :
    t.ChangedAt (t.setSelectedIndex n index).2 n :=
  changedAt_updateElement (h.setSelectedIndex n index) h.toWellLinked

/-! ## A new node under a parent -/

/-- A second tree that differs from the first by a new node at the end of a parent's children. -/
structure Appended (t t' : Tree) (p n : NodeId) : Prop extends t.ChangedAt t' p where
  fresh : t.get? n = none
  exists_parent : (t.get? p).isSome
  label?_parent : t'.label? p = t.label? p
  children_parent : t'.children p = t.children p ++ [n]
  children_child : t'.children n = []

namespace Appended

variable (ha : t.Appended t' p n)
include ha

theorem parent?_child : t'.parent? n = some p := by
  rw [← ha.wellFormed.toWellLinked.mem_children_iff, ha.children_parent]
  exact List.mem_append_right _ List.mem_cons_self

theorem parent_ne : p ≠ n := ne_of_isSome ha.exists_parent ha.fresh

/-- What a new node shows is its label, above nothing. -/
theorem view_child (hl : t'.label? n = some l) : t'.view n = some (.ofLabel l []) := by
  rw [ha.wellFormed.toWellLinked.view_eq, hl, childViews, ha.children_child]
  rfl

/-- Once changes at the new node are done, the parent shows it after what it showed before. -/
theorem childViews_eq (h : t.WellFormed) (hc : t'.ChangedAt t'' n) (hr : t''.view n = some r) :
    t''.childViews p = t.childViews p ++ [r] := by
  have hp' : (t'.get? p).isSome := ha.isSome ha.exists_parent
  rw [childViews, hc.children_eq ha.parent_ne hp', ha.children_parent, List.filterMap_append,
    List.filterMap_cons_some hr, List.filterMap_nil, childViews]
  congr 1
  refine List.filterMap_congr fun c hmem => ?_
  have hparent := h.toWellLinked.mem_children_iff.1 hmem
  have hc' : c ∈ t'.children p := by
    rw [ha.children_parent]
    exact List.mem_append_left _ hmem
  have hparent' := ha.wellFormed.toWellLinked.mem_children_iff.1 hc'
  have hsome := isSome_of_parent? hparent
  calc t''.view c = t'.view c :=
        hc.view_eq ha.wellFormed (ha.isSome hsome) (ne_of_isSome hsome ha.fresh)
          (ha.wellFormed.toWellLinked.not_above_sibling hparent' ha.parent?_child)
    _ = t.view c := ha.toChangedAt.view_child_eq h hparent

theorem trans_new (hc : t'.ChangedAt t'' n) : t.ChangedAt t'' p :=
  ha.toChangedAt.trans_new ha.fresh hc

theorem label?_parent_trans (hc : t'.ChangedAt t'' n) : t''.label? p = t.label? p :=
  (hc.label?_eq ha.parent_ne (ha.isSome ha.exists_parent)).trans ha.label?_parent

end Appended

/-- Whether a node may have children is seen from its label. -/
theorem canHaveChildren_eq (names : NameTable) (node : Node) :
    node.canHaveChildren = (node.content.label names).canHaveChildren := by
  rw [Node.canHaveChildren, Node.text?]
  cases node.content <;> rfl

/-- A node that was created since may be attached to every node that may have children. -/
theorem attachable_of_fresh (h : t.WellFormed) (hfresh : t.get? n = none)
    (hn : (t'.get? n).isSome) (hparent : t'.parent? = t.parent?)
    (hp : t'.label? p = some l) (hcontainer : l.canHaveChildren = true) (hne : n ≠ p) :
    t'.Attachable p n := by
  have hdetached : t.parent? n = none := by rw [Tree.parent?, hfresh, Option.bind_none]
  obtain ⟨pnode, hpnode, rfl⟩ := Option.map_eq_some_iff.1 hp
  obtain ⟨node, hnode⟩ := Option.isSome_iff_exists.1 hn
  refine
    { parent := ⟨pnode, hpnode, (canHaveChildren_eq t'.names pnode).trans hcontainer⟩
      child := ⟨node, hnode, ?_⟩
      ne := hne
      ne_root := ?_
      not_above := not_above_of_childless fun c hc => ?_ }
  · rw [← parent?_of_get? hnode, hparent, hdetached]
  · rintro rfl
    obtain ⟨root, hroot, -⟩ := h.root
    rw [hroot] at hfresh
    cases hfresh
  · have hlt := h.grounded.parent_lt (hparent ▸ hc)
    exact absurd (get?_isSome_iff.2 hlt) (by rw [hfresh]; exact Bool.false_ne_true)

/-- A node that was created since, and perhaps labelled, is appended to a node that may have
children. -/
theorem append_fresh {l' : Label} (h : t.WellFormed) (h' : t'.WellFormed) (hfresh : t.get? n = none)
    (hlabel : ∀ m, t'.label? m = if m = n then some l' else t.label? m)
    (hparent : t'.parent? = t.parent?) (hchildren : t'.children = t.children)
    (hp : t.label? p = some l) (hcontainer : l.canHaveChildren = true) :
    t'.append p n = (.ok n, t'.attach p n) ∧ t.Appended (t'.attach p n) p n ∧
      (t'.attach p n).label? n = some l' := by
  have hself := hlabel n
  rw [if_pos rfl] at hself
  have hold : ∀ {m}, (t.get? m).isSome → t'.label? m = t.label? m := fun hm => by
    rw [hlabel, if_neg (ne_of_isSome hm hfresh)]
  have hsome := isSome_of_label? hp
  have hc : t'.Attachable p n := attachable_of_fresh h hfresh (isSome_of_label? hself) hparent
    ((hold hsome).trans hp) hcontainer (ne_of_isSome hsome hfresh).symm
  have hlabel' : ∀ {m}, (t.get? m).isSome → (t'.attach p n).label? m = t.label? m := fun hm => by
    rw [label?_attach, hold hm]
  refine ⟨append_of_attachable h'.toWellLinked hc,
    { wellFormed := h'.attach hc
      isSome := fun hm => by rwa [← isSome_label?, hlabel' hm, isSome_label?]
      label?_eq := fun _ hm => hlabel' hm
      children_eq := fun {m} hmp _ => ?_
      fresh := hfresh
      exists_parent := hsome
      label?_parent := hlabel' hsome
      children_parent := ?_
      children_child := ?_ }, by rw [label?_attach, hself]⟩
  · rw [children_attach hc h'.toWellLinked, if_neg hmp, hchildren]
  · rw [children_attach hc h'.toWellLinked, if_pos rfl, hchildren]
  · rw [children_attach hc h'.toWellLinked, if_neg hc.ne, hchildren]
    exact children_of_get?_eq_none hfresh

/-- A division that was created and got an id is appended to a node that may have children. -/
theorem append_division (h : t.WellFormed) (hp : t.label? p = some l)
    (hcontainer : l.canHaveChildren = true) (id : String)
    (ht : ((t.createElement "div").2.setAttribute ⟨t.size⟩ "id" id).2 = t') :
    t'.append p ⟨t.size⟩ = (.ok ⟨t.size⟩, t'.attach p ⟨t.size⟩) ∧
      t.Appended (t'.attach p ⟨t.size⟩) p ⟨t.size⟩ ∧
      (t'.attach p ⟨t.size⟩).label? ⟨t.size⟩ = some (.element "div" [("id", id)] none) := by
  subst ht
  have hcreate := h.createElement "div"
  have hlabel : ∀ m, ((t.createElement "div").2.setAttribute ⟨t.size⟩ "id" id).2.label? m =
      if m = ⟨t.size⟩ then some (.element "div" [("id", id)] none) else t.label? m := by
    intro m
    rw [label?_setAttribute hcreate.toNamed, label?_createElement h.toNamed]
    show (if m = ⟨t.size⟩ then Option.map _ (if m = ⟨t.size⟩ then _ else _)
      else if m = ⟨t.size⟩ then _ else _) = _
    split <;> rfl
  exact append_fresh h (hcreate.setAttribute _ "id" id) (get?_eq_none_iff.2 (Nat.le_refl _)) hlabel
    (by rw [parent?_setAttribute, parent?_createElement])
    (by rw [children_setAttribute hcreate.toWellLinked, children_createElement h.toWellLinked])
    hp hcontainer

end Tree

end PageBuilder.Dom
