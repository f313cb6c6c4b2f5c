import PageBuilder.Proofs.Dom.Histories
import PageBuilder.Proofs.Dom.Paths

/-!
# What appending accepts and does

A node can be appended to another unless that would break the tree, and `Obstructed` lists what
would. That the parent is not below the child is tested by climbing from the parent, although it is
a question about the child's subtree; where all links agree the two are the same.

Once it is accepted, appending writes links in up to three nodes. `Adopts` says what has changed
thereby: one node is the last child of another, and that is all.
-/

namespace PageBuilder.Dom.Tree

variable {t t' : Tree} {n p c : NodeId} {pnode : Node}

/-- What stands in the way of appending a node to another, both of which are there. -/
inductive Obstructed (t : Tree) (p c : NodeId) : Prop where
  /-- The parent is a text. -/
  | text {s : String} (h : t.label? p = some (.text s))
  /-- The child is the parent. -/
  | self (h : c = p)
  /-- The child is the document. -/
  | document (h : t.label? c = some .document)
  /-- The child has a parent. -/
  | attached {q : NodeId} (h : t.parent? c = some q)
  /-- The parent is in the subtree of the child. -/
  | below {path : List ℕ} (h : t.descend? c path = some p)

/-- A second tree that differs from the first in that `p` has `c` as its last child. -/
structure Adopts (t t' : Tree) (p c : NodeId) : Prop where
  children_eq : ∀ n, t'.children n = if n = p then t.children p ++ [c] else t.children n
  parent?_eq : ∀ n, t'.parent? n = if n = c then some p else t.parent? n
  content_eq : ∀ n, (t'.get? n).map Node.content = (t.get? n).map Node.content
  names_eq : t'.names = t.names

/-! ## What is accepted -/

theorem label?_eq_text_iff (hp : t.get? p = some pnode) :
    (∃ s, t.label? p = some (.text s)) ↔ pnode.canHaveChildren = false := by
  rw [label?, hp, Option.map_some, Node.canHaveChildren, Node.text?]
  cases pnode.content <;> simp [Content.label]

/-- A node may be attached to another exactly if both are there and nothing stands in the way. -/
theorem WellLinked.attachable_iff (h : t.WellLinked) :
    t.Attachable p c ↔ (t.get? p).isSome ∧ (t.get? c).isSome ∧ ¬ t.Obstructed p c := by
  constructor
  · intro hc
    obtain ⟨pnode, hp, hcontainer⟩ := hc.parent
    obtain ⟨cnode, hcnode, -⟩ := hc.child
    refine ⟨by rw [hp]; rfl, by rw [hcnode]; rfl, fun hobstructed => ?_⟩
    cases hobstructed with
    | text hl =>
      rw [(label?_eq_text_iff hp).1 ⟨_, hl⟩] at hcontainer
      cases hcontainer
    | self heq => exact hc.ne heq
    | document hl => exact hc.ne_root (h.label?_eq_document_iff.1 hl)
    | attached hq =>
      rw [hc.parent?_child] at hq
      cases hq
    | below hpath =>
      rcases h.exists_descend?_iff.1 ⟨_, hpath⟩ with heq | habove
      · exact hc.ne heq.symm
      · exact hc.not_above habove
  · rintro ⟨hp, hc, hobstructed⟩
    obtain ⟨pnode, hp⟩ := Option.isSome_iff_exists.1 hp
    obtain ⟨cnode, hcnode⟩ := Option.isSome_iff_exists.1 hc
    have htext : pnode.canHaveChildren ≠ false := fun hleaf => by
      obtain ⟨s, hs⟩ := (label?_eq_text_iff hp).2 hleaf
      exact hobstructed (.text hs)
    have hdetached : cnode.parent = none := by
      rw [← parent?_of_get? hcnode, Option.eq_none_iff_forall_not_mem]
      exact fun q hq => hobstructed (.attached hq)
    refine
      { parent := ⟨pnode, hp, by simpa using htext⟩
        child := ⟨cnode, hcnode, hdetached⟩
        ne := fun heq => hobstructed (.self heq)
        ne_root := fun hroot => hobstructed (.document (h.label?_eq_document_iff.2 hroot))
        not_above := fun habove => ?_ }
    obtain ⟨path, hpath⟩ := h.exists_descend?_iff.2 (.inr habove)
    exact hobstructed (.below hpath)

/-! ## What is refused -/

theorem append_of_obstructed (h : t.WellLinked) (hp : (t.get? p).isSome) (hc : (t.get? c).isSome)
    (hobstructed : t.Obstructed p c) : t.append p c = (.error (.hierarchy p c), t) := by
  obtain ⟨e, he⟩ := append_of_not_attachable h fun hattachable =>
    (h.attachable_iff.1 hattachable).2.2 hobstructed
  obtain ⟨pnode, hp⟩ := Option.isSome_iff_exists.1 hp
  obtain ⟨cnode, hcnode⟩ := Option.isSome_iff_exists.1 hc
  rw [append, hp, hcnode] at he ⊢
  dsimp only at he ⊢
  split at he
  · rw [if_pos ‹_›]
  · cases he

theorem attachable_of_append_eq_ok (h : t.WellLinked) (hok : (t.append p c).1 = .ok c) :
    t.Attachable p c := by
  by_contra hc
  obtain ⟨e, he⟩ := append_of_not_attachable h hc
  rw [he] at hok
  cases hok

/-! ## What is done -/

theorem adopts_attach (h : t.WellLinked) (hc : t.Attachable p c) :
    t.Adopts (t.attach p c) p c where
  children_eq := fun n => by
    rw [children_attach hc h]
    split
    · rename_i hn
      rw [hn]
    · rfl
  parent?_eq := parent?_attach hc
  content_eq := fun n => by
    rw [get?_attach]
    cases t.get? n <;> rfl
  names_eq := names_attach t p c

theorem adopts_append (h : t.WellLinked) (hok : (t.append p c).1 = .ok c) :
    t.Adopts (t.append p c).2 p c := by
  have hc := attachable_of_append_eq_ok h hok
  rw [append_of_attachable h hc]
  exact adopts_attach h hc

/-- Seen from above, appending is a change at the parent. -/
theorem changedAt_append (h : t.WellFormed) (hok : (t.append p c).1 = .ok c) :
    t.ChangedAt (t.append p c).2 p := by
  have hadopts := adopts_append h.toWellLinked hok
  have hlabel := t.label?_append p c
  exact
    { wellFormed := h.append p c
      isSome := fun {m} hm => by rwa [← isSome_label?, hlabel, isSome_label?]
      label?_eq := fun _ _ => by rw [hlabel]
      children_eq := fun hne _ => by rw [hadopts.children_eq, if_neg hne] }

/-- Whatever is neither the parent nor above it shows what it showed, whether it is there or not. -/
theorem view_append_eq (h : t.WellFormed) (hok : (t.append p c).1 = .ok c) (hne : n ≠ p)
    (habove : ¬ t.Above n p) : (t.append p c).2.view n = t.view n := by
  have hchanged := changedAt_append h hok
  cases hn : t.get? n with
  | some node => exact hchanged.view_eq h (by rw [hn]; rfl) hne habove
  | none =>
    have hcontent := (adopts_append h.toWellLinked hok).content_eq n
    rw [hn, Option.map_none, Option.map_eq_none_iff] at hcontent
    rw [h.toWellLinked.view_eq, label?_eq_none_iff.2 hn, hchanged.wellFormed.toWellLinked.view_eq,
      label?_eq_none_iff.2 hcontent, Option.map_none, Option.map_none]

/-- Nothing in the subtree of a node that could be appended is the parent or above it. -/
theorem Attachable.not_above_of_subtree (hc : t.Attachable p c) (hn : n = c ∨ t.Above c n) :
    n ≠ p ∧ ¬ t.Above n p := by
  rcases hn with rfl | hcn
  · exact ⟨hc.ne, hc.not_above⟩
  · refine ⟨?_, fun hnp => hc.not_above (hcn.trans hnp)⟩
    rintro rfl
    exact hc.not_above hcn

/-- **Appending accepts whatever leaves a tree a tree, and does one thing.** A missing parent is
named before a missing child; if both are there, the append is refused exactly if something stands
in its way. A refusal changes nothing, and an append that is accepted makes the child the last one
of the parent and changes nothing else. -/
theorem append_accepts (ht : t.Reachable) (p c : NodeId) :
    (t.get? p = none → t.append p c = (.error (.notFound p), t)) ∧
      ((t.get? p).isSome → t.get? c = none → t.append p c = (.error (.notFound c), t)) ∧
      ((t.get? p).isSome → (t.get? c).isSome → t.Obstructed p c →
        t.append p c = (.error (.hierarchy p c), t)) ∧
      ((t.get? p).isSome → (t.get? c).isSome → ¬ t.Obstructed p c →
        ∃ t', t.append p c = (.ok c, t') ∧ t.Adopts t' p c) := by
  have h := ht.wellFormed.toWellLinked
  refine ⟨fun hp => ?_, fun hp hc => ?_, append_of_obstructed h, fun hp hc hfree => ?_⟩
  · rw [append, hp]
  · obtain ⟨pnode, hp⟩ := Option.isSome_iff_exists.1 hp
    rw [append, hp, hc]
  · have hattachable := h.attachable_iff.2 ⟨hp, hc, hfree⟩
    exact ⟨_, append_of_attachable h hattachable, adopts_attach h hattachable⟩

/-- A division cannot be appended below the text in its own paragraph, nor to that paragraph; it can
be appended to the document. -/
theorem append_accepts_nested :
    (new.after nested).Reachable ∧
      (new.after nested).append ⟨9⟩ ⟨8⟩ = (.error (.notFound ⟨9⟩), new.after nested) ∧
      (new.after nested).append ⟨2⟩ ⟨1⟩ = (.error (.hierarchy ⟨2⟩ ⟨1⟩), new.after nested) ∧
      ∃ t', (new.after nested).append .root ⟨1⟩ = (.ok ⟨1⟩, t') ∧
        (new.after nested).Adopts t' .root ⟨1⟩ := by
  have ht : (new.after nested).Reachable := Reachable.new.after nested
  have hp : ((new.after nested).get? ⟨2⟩).isSome := by decide +kernel
  have hc : ((new.after nested).get? ⟨1⟩).isSome := by decide +kernel
  have hroot : ((new.after nested).get? .root).isSome := by decide +kernel
  have hpath : (new.after nested).descend? ⟨1⟩ [0] = some ⟨2⟩ := by decide +kernel
  have hmissing : (new.after nested).get? ⟨9⟩ = none := by decide +kernel
  have hdetached : (new.after nested).parent? ⟨1⟩ = none := by decide +kernel
  have hdocument : (new.after nested).label? .root = some .document := by decide +kernel
  have hdivision : (new.after nested).label? ⟨1⟩ = some (.element "div" [] none) := by
    decide +kernel
  refine ⟨ht, (append_accepts ht ⟨9⟩ ⟨8⟩).1 hmissing,
    (append_accepts ht ⟨2⟩ ⟨1⟩).2.2.1 hp hc (.below hpath),
    (append_accepts ht .root ⟨1⟩).2.2.2 hroot hc fun hobstructed => ?_⟩
  have hlinked := ht.wellFormed.toWellLinked
  cases hobstructed with
  | text hl => cases hdocument.symm.trans hl
  | self heq => cases heq
  | document hl => cases hdivision.symm.trans hl
  | attached hq => cases hdetached.symm.trans hq
  | below hbelow =>
    rcases hlinked.exists_descend?_iff.1 ⟨_, hbelow⟩ with heq | habove
    · cases heq
    · exact not_above_of_parent?_eq_none hlinked.parent?_root habove

end PageBuilder.Dom.Tree
