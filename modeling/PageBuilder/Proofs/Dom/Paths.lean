import PageBuilder.Proofs.Dom.Changes

/-!
# Paths

A path leads down a tree by positions: to the child at the first position, from there to the child
at the second, and so on (`Tree.descend?`). Where all links agree, no two paths from the root lead
to the same node, and where no node is left detached (`Attached`), there is a path to each
(`existsUnique_descend?`).

`Extends` are the changes that are made by operations of which none is refused, and that leave no
new node detached and no old one without its parent. They keep a tree attached.
-/

namespace PageBuilder.Dom.Tree

variable {t t' t'' : Tree} {n m p c : NodeId}

/-- The node at the end of a path. -/
def descend? (t : Tree) : NodeId → List ℕ → Option NodeId
  | n, [] => some n
  | n, i :: path => (t.children n)[i]?.bind fun c => t.descend? c path

/-- Every node but the root has a parent. -/
def Attached (t : Tree) : Prop := ∀ n, n.index < t.size → n ≠ .root → (t.parent? n).isSome

/-! ## Where paths lead -/

theorem descend?_concat (n : NodeId) (path : List ℕ) (i : ℕ) :
    t.descend? n (path ++ [i]) = (t.descend? n path).bind fun m => (t.children m)[i]? := by
  induction path generalizing n with
  | nil => simp [descend?]
  | cons j path ih =>
    rw [List.cons_append, descend?, descend?, Option.bind_assoc]
    exact congrArg _ (funext ih)

namespace WellLinked

variable (h : t.WellLinked)
include h

/-- The last step of a path leads from a parent to its child. -/
theorem exists_of_descend?_concat {path : List ℕ} {i : ℕ}
    (hpath : t.descend? n (path ++ [i]) = some c) :
    ∃ p, t.descend? n path = some p ∧ (t.children p)[i]? = some c ∧ t.parent? c = some p := by
  rw [descend?_concat, Option.bind_eq_some_iff] at hpath
  obtain ⟨p, hp, hc⟩ := hpath
  exact ⟨p, hp, hc, h.mem_children_iff.1 (List.mem_of_getElem? hc)⟩

/-- No two paths from the root lead to the same node. -/
theorem descend?_root_inj {path path' : List ℕ} (hpath : t.descend? .root path = some n)
    (hpath' : t.descend? .root path' = some n) : path = path' := by
  -- no step leads to the root
  have hroot : ∀ {path i}, t.descend? .root (path ++ [i]) ≠ some .root := by
    intro path i hr
    obtain ⟨p, -, -, hp⟩ := h.exists_of_descend?_concat hr
    rw [h.parent?_root] at hp
    cases hp
  induction path using List.reverseRecOn generalizing n path' with
  | nil =>
    obtain rfl : NodeId.root = n := Option.some.inj hpath
    cases path' using List.reverseRecOn with
    | nil => rfl
    | append_singleton path' j => exact absurd hpath' hroot
  | append_singleton path i ih =>
    cases path' using List.reverseRecOn with
    | nil =>
      obtain rfl : NodeId.root = n := Option.some.inj hpath'
      exact absurd hpath hroot
    | append_singleton path' j =>
      obtain ⟨p, hp, hi, hparent⟩ := h.exists_of_descend?_concat hpath
      obtain ⟨p', hp', hj, hparent'⟩ := h.exists_of_descend?_concat hpath'
      obtain rfl : p = p' := Option.some.inj (hparent.symm.trans hparent')
      obtain ⟨hlt, -⟩ := List.getElem?_eq_some_iff.1 hi
      have hij := (List.getElem?_inj hlt (h.nodup_children p)).1 (hi.trans hj.symm)
      rw [ih hp hp', hij]

/-- A path leads from a node to itself and to every node that it is above, and nowhere else. -/
theorem exists_descend?_iff :
    (∃ path, t.descend? n path = some m) ↔ m = n ∨ t.Above n m := by
  constructor
  · rintro ⟨path, hpath⟩
    induction path using List.reverseRecOn generalizing m with
    | nil => exact .inl (Option.some.inj hpath).symm
    | append_singleton path i ih =>
      obtain ⟨p, hp, -, hparent⟩ := h.exists_of_descend?_concat hpath
      exact .inr (above_iff.2 ⟨p, hparent, (ih hp).imp_left Eq.symm⟩)
  · -- each step up is a step down at some position
    have hstep : ∀ {p c path}, t.descend? n path = some p → t.parent? c = some p →
        ∃ path, t.descend? n path = some c := by
      intro p c path hp hc
      obtain ⟨i, hi⟩ := List.mem_iff_getElem?.1 (h.mem_children_iff.2 hc)
      exact ⟨path ++ [i], by rw [descend?_concat, hp, Option.bind_some, hi]⟩
    rintro (rfl | habove)
    · exact ⟨[], rfl⟩
    · have hself : t.descend? n [] = some n := rfl
      induction habove with
      | single hc => exact hstep hself hc
      | tail _ hc ih =>
        obtain ⟨path, hpath⟩ := ih
        exact hstep hpath hc

/-- In an attached tree, a path leads to every node. -/
theorem exists_descend? (ha : t.Attached) (hn : n.index < t.size) :
    ∃ path, t.descend? .root path = some n := by
  induction hd : t.depth n using Nat.strong_induction_on generalizing n with
  | _ k ih =>
    by_cases hroot : n = .root
    · exact ⟨[], by rw [hroot]; rfl⟩
    obtain ⟨p, hp⟩ := Option.isSome_iff_exists.1 (ha n hn hroot)
    have hlt := h.grounded.depth_lt_depth hp
    obtain ⟨path, hpath⟩ := ih (t.depth p) (by omega) (h.parent_lt hp) rfl
    obtain ⟨i, hi⟩ := List.mem_iff_getElem?.1 (h.mem_children_iff.2 hp)
    refine ⟨path ++ [i], ?_⟩
    rw [descend?_concat, hpath, Option.bind_some, hi]

/-- **In an attached tree, exactly one path leads from the root to each node.** -/
theorem existsUnique_descend? (ha : t.Attached) (hn : n.index < t.size) :
    ∃! path, t.descend? .root path = some n := by
  obtain ⟨path, hpath⟩ := h.exists_descend? ha hn
  exact ⟨path, hpath, fun _ hother => h.descend?_root_inj hother hpath⟩

end WellLinked

/-! ## Changes that leave no node detached -/

/-- Where every node has a parent it stays so, if new nodes have one and old ones keep theirs. -/
theorem Attached.of_parent? (ha : t.Attached)
    (hold : ∀ {m p}, t.parent? m = some p → t'.parent? m = some p)
    (hnew : ∀ m, t.size ≤ m.index → m.index < t'.size → (t'.parent? m).isSome) :
    t'.Attached := by
  intro n hn hroot
  by_cases hlt : n.index < t.size
  · obtain ⟨p, hp⟩ := Option.isSome_iff_exists.1 (ha n hlt hroot)
    rw [hold hp]
    rfl
  · exact hnew n (by omega) hn

/-- An operation is granted and leads to a second tree. -/
def Grants (t t' : Tree) : Prop := ∃ op : Operation, op.run t = (.ok (), t')

/-- A second tree to which granted operations lead, in which every new node has a parent and every
old one the parent it had. -/
structure Extends (t t' : Tree) : Prop where
  granted : Relation.ReflTransGen Grants t t'
  parent?_eq : ∀ {m p}, t.parent? m = some p → t'.parent? m = some p
  attached_new : ∀ m, t.size ≤ m.index → m.index < t'.size → (t'.parent? m).isSome

theorem Reachable.of_granted (ht : t.Reachable) (h : Relation.ReflTransGen Grants t t') :
    t'.Reachable := by
  induction h with
  | refl => exact ht
  | tail _ hop ih =>
    obtain ⟨op, hop⟩ := hop
    have hrun := ih.run op
    rwa [hop] at hrun

namespace Extends

theorem refl (t : Tree) : t.Extends t :=
  ⟨.refl, id, fun m _ _ => by omega⟩

theorem trans (h : t.Extends t') (h' : t'.Extends t'') : t.Extends t'' where
  granted := h.granted.trans h'.granted
  parent?_eq := fun hm => h'.parent?_eq (h.parent?_eq hm)
  attached_new := by
    intro m hnew hm
    by_cases hold : m.index < t'.size
    · obtain ⟨p, hp⟩ := Option.isSome_iff_exists.1 (h.attached_new m hnew hold)
      rw [h'.parent?_eq hp]
      rfl
    · exact h'.attached_new m (by omega) hm

theorem attached (h : t.Extends t') (ha : t.Attached) : t'.Attached :=
  ha.of_parent? h.parent?_eq h.attached_new

/-- A granted operation that creates no node and leaves the parents alone. -/
theorem of_parent?_eq (op : Operation) (hop : op.run t = (.ok (), t'))
    (hparent : t'.parent? = t.parent?) (hsize : t'.size = t.size) : t.Extends t' where
  granted := .single ⟨op, hop⟩
  parent?_eq := fun hm => by rw [hparent, hm]
  attached_new := fun m _ _ => by omega

end Extends

theorem size_updateElement (t : Tree) (n : NodeId) (f : Element → Element) :
    (t.updateElement n f).2.size = t.size :=
  size_of_get?_map (get?_updateElement t n f)

theorem extends_setAttribute {e : Element} (he : t.element? n = some e) (name value : String) :
    t.Extends (t.setAttribute n name value).2 :=
  .of_parent?_eq (.setAttribute n name value)
    (Prod.ext (setAttribute_fst_of_element? he name value) rfl) (parent?_setAttribute n name value)
    (size_updateElement (t.withName name) n _)

theorem extends_setSelectedIndex {e : Element} (he : t.element? n = some e) (index : ℕ) :
    t.Extends (t.setSelectedIndex n index).2 :=
  .of_parent?_eq (.setSelectedIndex n index)
    (Prod.ext (setSelectedIndex_fst_of_element? he index) rfl) (parent?_updateElement n _)
    (size_updateElement t n _)

namespace Appended

variable (ha : t.Appended t' p n)
include ha

theorem parent?_eq (h : t.WellFormed) {q : NodeId} (hm : t.parent? m = some q) :
    t'.parent? m = some q := by
  have hmem := h.toWellLinked.mem_children_iff.2 hm
  refine ha.wellFormed.toWellLinked.mem_children_iff.1 ?_
  by_cases hq : q = p
  · rw [hq, ha.children_parent, ← hq]
    exact List.mem_append_left _ hmem
  · rwa [ha.children_eq hq (get?_isSome_iff.2 (h.parent_lt hm))]

/-- If one node is new, it is the one that was appended. -/
theorem isSome_parent?_new (hsize : t'.size = t.size + 1) (m : NodeId) (hnew : t.size ≤ m.index)
    (hm : m.index < t'.size) : (t'.parent? m).isSome := by
  have hn := get?_eq_none_iff.1 ha.fresh
  have hn' := get?_isSome_iff.1 (isSome_of_parent? ha.parent?_child)
  obtain rfl : m = n := by
    cases m
    cases n
    simp only [NodeId.mk.injEq] at *
    omega
  rw [ha.parent?_child]
  rfl

theorem toExtends (h : t.WellFormed) (hgranted : Relation.ReflTransGen Grants t t')
    (hsize : t'.size = t.size + 1) : t.Extends t' :=
  ⟨hgranted, ha.parent?_eq h, ha.isSome_parent?_new hsize⟩

end Appended

end PageBuilder.Dom.Tree
