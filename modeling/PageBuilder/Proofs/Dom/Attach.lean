import PageBuilder.Proofs.Dom.Links

/-!
# What the changes do to the links

A tree changes its links in two ways only: a new node comes in without any, and a node is attached
as the last child of another. Either keeps all links in agreement (`WellLinked.add`,
`WellLinked.attach`), and so does whatever leaves them alone (`WellLinked.of_sameLinks`).

To attach a node is to write up to three nodes, but no two of the writes touch the same link of the
same node (`get?_attach`), so all of it is said by two equations: one for the parents
(`parent?_attach`) and one for the children (`children_attach`).
-/

namespace PageBuilder.Dom.Tree

variable {t : Tree} {n p c : NodeId} {node pnode cnode : Node}

/-! ## Changes that leave the links alone -/

/-- Two nodes have the same links and the same right to children, and both or neither of them is
a document. -/
structure SameLinks (a b : Node) : Prop where
  parent : b.parent = a.parent
  firstChild : b.firstChild = a.firstChild
  lastChild : b.lastChild = a.lastChild
  previous : b.previous = a.previous
  next : b.next = a.next
  canHaveChildren : b.canHaveChildren = a.canHaveChildren
  document_iff : b.content = .document ↔ a.content = .document

theorem SameLinks.refl (node : Node) : SameLinks node node :=
  ⟨rfl, rfl, rfl, rfl, rfl, rfl, Iff.rfl⟩

section SameLinks

variable {t' : Tree} {f : NodeId → Node → Node}
  (hget : ∀ n, t'.get? n = (t.get? n).map (f n))
include hget

/-- What a node is now tells what it was. -/
theorem exists_of_get?_map {node' : Node} (hn : t'.get? n = some node') :
    ∃ node, t.get? n = some node ∧ node' = f n node := by
  rw [hget, Option.map_eq_some_iff] at hn
  obtain ⟨node, hn, rfl⟩ := hn
  exact ⟨node, hn, rfl⟩

theorem size_of_get?_map : t'.size = t.size := by
  have hiff : ∀ i, i < t'.size ↔ i < t.size := fun i => by
    rw [← get?_isSome_iff (n := ⟨i⟩), ← get?_isSome_iff (n := ⟨i⟩), hget, Option.isSome_map]
  have h1 := hiff t.size
  have h2 := hiff t'.size
  omega

variable (hsame : ∀ n node, t.get? n = some node → SameLinks node (f n node))
include hsame

theorem link_of_sameLinks {link : Node → Option NodeId}
    (hlink : ∀ a b, SameLinks a b → link b = link a) (n : NodeId) :
    (t'.get? n).map link = (t.get? n).map link := by
  rw [hget]
  cases hn : t.get? n with
  | none => rfl
  | some node => exact congrArg some (hlink _ _ (hsame n node hn))

theorem parent?_of_sameLinks : t'.parent? = t.parent? := by
  funext n
  rw [parent?, parent?, hget]
  cases hn : t.get? n with
  | none => rfl
  | some node => exact (hsame n node hn).parent

theorem above_of_sameLinks : t'.Above = t.Above := by
  unfold Above
  rw [parent?_of_sameLinks hget hsame]

theorem HasChildren.of_sameLinks {cs : List NodeId} (hp : t.get? p = some pnode)
    (h : t.HasChildren p pnode cs) : t'.HasChildren p (f p pnode) cs where
  nodup := h.nodup
  forward := by
    rw [(hsame p pnode hp).firstChild]
    exact h.forward.congr fun d _ => link_of_sameLinks hget hsame (fun _ _ hs => hs.next) d
  backward := by
    rw [(hsame p pnode hp).lastChild]
    exact h.backward.congr fun d _ => link_of_sameLinks hget hsame (fun _ _ hs => hs.previous) d
  mem_iff := by
    rw [parent?_of_sameLinks hget hsame]
    exact h.mem_iff

/-- A change that leaves the links alone keeps them in agreement. -/
theorem WellLinked.of_sameLinks (h : t.WellLinked) : t'.WellLinked where
  link_lt := by
    intro n node' hn' m hm
    obtain ⟨node, hn, rfl⟩ := exists_of_get?_map hget hn'
    have hs := hsame n node hn
    rw [size_of_get?_map hget]
    refine h.link_lt hn m ?_
    simpa only [Node.links, hs.parent, hs.firstChild, hs.lastChild, hs.previous, hs.next] using hm
  exists_children := by
    intro q node' hq'
    obtain ⟨node, hq, rfl⟩ := exists_of_get?_map hget hq'
    obtain ⟨cs, hcs⟩ := h.exists_children hq
    exact ⟨cs, hcs.of_sameLinks hget hsame hq⟩
  detached := by
    intro n node' hn' hparent
    obtain ⟨node, hn, rfl⟩ := exists_of_get?_map hget hn'
    have hs := hsame n node hn
    rw [hs.parent] at hparent
    rw [hs.previous, hs.next]
    exact h.detached hn hparent
  acyclic := by
    rw [above_of_sameLinks hget hsame]
    exact h.acyclic
  document_iff := by
    intro n node' hn'
    obtain ⟨node, hn, rfl⟩ := exists_of_get?_map hget hn'
    rw [(hsame n node hn).document_iff]
    exact h.document_iff hn
  root := by
    obtain ⟨node, hroot, hparent⟩ := h.root
    refine ⟨f .root node, by rw [hget, hroot, Option.map_some], ?_⟩
    rw [(hsame _ node hroot).parent, hparent]
  leaf := by
    intro n node' hn' hleaf
    obtain ⟨node, hn, rfl⟩ := exists_of_get?_map hget hn'
    have hs := hsame n node hn
    rw [hs.canHaveChildren] at hleaf
    rw [hs.firstChild, hs.lastChild]
    exact h.leaf hn hleaf

theorem children_of_sameLinks (h : t.WellLinked) : t'.children = t.children := by
  funext p
  cases hp : t.get? p with
  | none =>
    have hp' : t'.get? p = none := by rw [hget, hp, Option.map_none]
    rw [children_of_get?_eq_none hp, children_of_get?_eq_none hp']
  | some node =>
    have hlists := (h.hasChildren_children hp).of_sameLinks hget hsame hp
    exact hlists.children_eq (by rw [hget, hp, Option.map_some])

end SameLinks

/-! ## A new node -/

section Add

variable {content : Content}

theorem get?_add_of_get? (hn : t.get? n = some node) :
    (t.add content).2.get? n = some node := by
  have hlt := lt_size_of_get? hn
  rw [get?_add, if_neg, hn]
  rintro rfl
  exact Nat.lt_irrefl _ hlt

theorem eq_or_get?_of_get?_add (hn : (t.add content).2.get? n = some node) :
    (n = (t.add content).1 ∧ node = { content }) ∨ t.get? n = some node := by
  rw [get?_add] at hn
  split at hn
  · exact .inl ⟨‹_›, (Option.some.inj hn).symm⟩
  · exact .inr hn

theorem parent?_add : (t.add content).2.parent? = t.parent? := by
  funext n
  rw [parent?, parent?, get?_add]
  split
  · rename_i hn
    have hnone : t.get? n = none := get?_eq_none_iff.2 (by rw [hn]; exact Nat.le_refl _)
    rw [hnone]
    rfl
  · rfl

theorem above_add : (t.add content).2.Above = t.Above := by
  unfold Above
  rw [parent?_add]

theorem HasChildren.add {cs : List NodeId} (h : t.HasChildren p pnode cs) :
    (t.add content).2.HasChildren p pnode cs where
  nodup := h.nodup
  forward := h.forward.congr fun d hd => by
    obtain ⟨dnode, hdnode⟩ := h.forward.exists_get? d hd
    rw [get?_add_of_get? hdnode, hdnode]
  backward := h.backward.congr fun d hd => by
    obtain ⟨dnode, hdnode⟩ := h.backward.exists_get? d hd
    rw [get?_add_of_get? hdnode, hdnode]
  mem_iff := by
    rw [parent?_add]
    exact h.mem_iff

variable (h : t.WellLinked)
include h

/-- A new node is nobody's parent. -/
theorem WellLinked.parent?_ne_new (c : NodeId) : t.parent? c ≠ some (t.add content).1 := by
  intro hc
  exact Nat.lt_irrefl _ (h.parent_lt hc)

theorem WellLinked.hasChildren_new :
    (t.add content).2.HasChildren (t.add content).1 { content } [] where
  nodup := List.nodup_nil
  forward := rfl
  backward := rfl
  mem_iff := fun c => by
    rw [parent?_add]
    simp [h.parent?_ne_new c]

/-- A new node that is no document keeps all links in agreement. -/
theorem WellLinked.add (hcontent : content ≠ .document) : (t.add content).2.WellLinked where
  link_lt := by
    intro n node hn m hm
    rcases eq_or_get?_of_get?_add hn with ⟨-, rfl⟩ | hn
    · simp [Node.links] at hm
    · have := h.link_lt hn m hm
      rw [size_add]
      omega
  exists_children := by
    intro p node hp
    rcases eq_or_get?_of_get?_add hp with ⟨rfl, rfl⟩ | hp
    · exact ⟨[], h.hasChildren_new⟩
    · obtain ⟨cs, hcs⟩ := h.exists_children hp
      exact ⟨cs, hcs.add⟩
  detached := by
    intro n node hn hparent
    rcases eq_or_get?_of_get?_add hn with ⟨-, rfl⟩ | hn
    · exact ⟨rfl, rfl⟩
    · exact h.detached hn hparent
  acyclic := by
    rw [above_add]
    exact h.acyclic
  document_iff := by
    intro n node hn
    rcases eq_or_get?_of_get?_add hn with ⟨rfl, rfl⟩ | hn
    · refine iff_of_false hcontent fun hroot => ?_
      have hlt := h.root_lt
      rw [← hroot] at hlt
      exact Nat.lt_irrefl _ hlt
    · exact h.document_iff hn
  root := by
    obtain ⟨node, hroot, hparent⟩ := h.root
    exact ⟨node, get?_add_of_get? hroot, hparent⟩
  leaf := by
    intro n node hn hleaf
    rcases eq_or_get?_of_get?_add hn with ⟨-, rfl⟩ | hn
    · exact ⟨rfl, rfl⟩
    · exact h.leaf hn hleaf

theorem children_add : (t.add content).2.children = t.children := by
  funext p
  cases hp : t.get? p with
  | some node => exact (h.hasChildren_children hp).add.children_eq (get?_add_of_get? hp)
  | none =>
    rw [children_of_get?_eq_none hp]
    cases hp' : (t.add content).2.get? p with
    | none => exact children_of_get?_eq_none hp'
    | some node =>
      rcases eq_or_get?_of_get?_add hp' with ⟨rfl, rfl⟩ | hp'
      · exact h.hasChildren_new.children_eq hp'
      · rw [hp] at hp'
        cases hp'

end Add

/-! ## Attaching a node -/

/-- A node after `c` was attached to `p`, whose last child was `last`. -/
def relinked (p c : NodeId) (last : Option NodeId) (n : NodeId) (node : Node) : Node where
  content := node.content
  parent := if n = c then some p else node.parent
  firstChild := if n = p ∧ last = none then some c else node.firstChild
  lastChild := if n = p then some c else node.lastChild
  previous := if n = c then last else node.previous
  next := if last = some n then some c else node.next

theorem get?_attach (t : Tree) (p c n : NodeId) :
    (t.attach p c).get? n =
      (t.get? n).map (relinked p c ((t.get? p).bind Node.lastChild) n) := by
  unfold attach
  cases (t.get? p).bind Node.lastChild with
  | none =>
    simp only [get?_modify]
    cases t.get? n with
    | none => split_ifs <;> rfl
    | some node => split_ifs <;> simp_all [relinked]
  | some last =>
    simp only [get?_modify]
    cases t.get? n with
    | none => split_ifs <;> rfl
    | some node => split_ifs <;> simp_all [relinked, eq_comm]

theorem get?_attach_of_get? (hp : t.get? p = some pnode) (n : NodeId) :
    (t.attach p c).get? n = (t.get? n).map (relinked p c pnode.lastChild n) := by
  rw [get?_attach, hp, Option.bind_some]

/-- Only the last child of the parent gets another next sibling. -/
theorem map_next_attach (hp : t.get? p = some pnode) (hn : pnode.lastChild ≠ some n) :
    ((t.attach p c).get? n).map Node.next = (t.get? n).map Node.next := by
  rw [get?_attach_of_get? hp]
  cases t.get? n with
  | none => rfl
  | some node => exact congrArg some (if_neg hn)

/-- Only the new child gets another previous sibling. -/
theorem map_previous_attach (t : Tree) (p : NodeId) (hn : n ≠ c) :
    ((t.attach p c).get? n).map Node.previous = (t.get? n).map Node.previous := by
  rw [get?_attach]
  cases t.get? n with
  | none => rfl
  | some node => exact congrArg some (if_neg hn)

/-- Where a node may be attached to another: both are there, the parent may have children, and the
child is neither attached yet nor the first node nor above the parent. -/
structure Attachable (t : Tree) (p c : NodeId) : Prop where
  parent : ∃ pnode, t.get? p = some pnode ∧ pnode.canHaveChildren = true
  child : ∃ cnode, t.get? c = some cnode ∧ cnode.parent = none
  ne : c ≠ p
  ne_root : c ≠ .root
  not_above : ¬ t.Above c p

section Attach

variable (hc : t.Attachable p c)
include hc

theorem Attachable.parent?_child : t.parent? c = none := by
  obtain ⟨cnode, hcnode, hparent⟩ := hc.child
  rw [parent?_of_get? hcnode, hparent]

theorem parent?_attach (n : NodeId) :
    (t.attach p c).parent? n = if n = c then some p else t.parent? n := by
  obtain ⟨cnode, hcnode, -⟩ := hc.child
  rw [parent?, parent?, get?_attach]
  split
  · subst n
    rw [hcnode]
    exact if_pos rfl
  · cases t.get? n with
    | none => rfl
    | some node => exact if_neg ‹_›

/-- A node that is attached where it may be gets nothing above itself. -/
theorem Attachable.acyclic_attach (h : t.WellLinked) (n : NodeId) :
    ¬ (t.attach p c).Above n n := by
  intro hn
  rcases above_or_of_parent? (parent?_attach hc) hn with hn | ⟨rfl | hnp, rfl | hcn⟩
  · exact h.acyclic n hn
  · exact hc.ne rfl
  · exact hc.not_above hcn
  · exact hc.not_above hnp
  · exact hc.not_above (hcn.trans hnp)

/-- From the new child back, the previous siblings lead to the first. -/
theorem Attachable.leads_previous {cs : List NodeId} (hp : t.get? p = some pnode)
    (hcs : t.HasChildren p pnode cs) (hcmem : c ∉ cs) :
    (t.attach p c).Leads Node.previous (relinked p c pnode.lastChild p pnode).lastChild
      (cs ++ [c]).reverse none := by
  obtain ⟨cnode, hcnode, -⟩ := hc.child
  rw [List.reverse_concat]
  refine ⟨if_pos rfl, _, by rw [get?_attach_of_get? hp, hcnode, Option.map_some], ?_⟩
  have hprevious : (relinked p c pnode.lastChild c cnode).previous = pnode.lastChild := if_pos rfl
  rw [hprevious]
  refine hcs.backward.congr fun d hd => map_previous_attach t p ?_
  rintro rfl
  exact hcmem (List.mem_reverse.1 hd)

variable (h : t.WellLinked)
include h

/-- The new child is not yet the last one. -/
theorem Attachable.lastChild_ne (hp : t.get? p = some pnode) : pnode.lastChild ≠ some c := by
  intro hlast
  obtain ⟨cs, hcs⟩ := h.exists_children hp
  have hparent := hcs.parent?_lastChild hlast
  rw [hc.parent?_child] at hparent
  cases hparent

/-- From the first child on, the next siblings lead to the new child at the end. -/
theorem Attachable.leads_next {cs : List NodeId} (hp : t.get? p = some pnode)
    (hcs : t.HasChildren p pnode cs) :
    (t.attach p c).Leads Node.next (relinked p c pnode.lastChild p pnode).firstChild (cs ++ [c])
      none := by
  have hget := get?_attach_of_get? (c := c) hp
  obtain ⟨cnode, hcnode, hdetached⟩ := hc.child
  -- the new child ends the list, since it has no siblings yet
  have hnew : (t.attach p c).Leads Node.next (some c) [c] none := by
    refine ⟨rfl, _, by rw [hget, hcnode, Option.map_some], ?_⟩
    show (if pnode.lastChild = some c then some c else cnode.next) = none
    rw [if_neg (hc.lastChild_ne h hp), (h.detached hcnode hdetached).2]
  refine leads_append.2 ⟨some c, ?_, hnew⟩
  have hforward := hcs.forward
  cases cs using List.reverseRecOn with
  | nil =>
    have hlast : pnode.lastChild = none := hcs.lastChild_eq
    show (if p = p ∧ pnode.lastChild = none then some c else pnode.firstChild) = some c
    rw [if_pos ⟨rfl, hlast⟩]
  | append_singleton init l _ =>
    have hlast : pnode.lastChild = some l := by rw [hcs.lastChild_eq, List.getLast?_concat]
    have hfirst : (relinked p c pnode.lastChild p pnode).firstChild = pnode.firstChild :=
      if_neg (by simp [hlast])
    have hl : l ∉ init := by
      intro hl
      have hnd := hcs.nodup
      rw [List.nodup_append] at hnd
      exact hnd.2.2 l hl l (List.mem_singleton_self l) rfl
    rw [hfirst]
    obtain ⟨m, hinit, rfl, lnode, hlnode, -⟩ := leads_append.1 hforward
    have hnext : (relinked p c pnode.lastChild l lnode).next = some c := if_pos hlast
    refine leads_append.2 ⟨some l, hinit.congr fun d hd => map_next_attach hp ?_, rfl, _,
      by rw [hget, hlnode, Option.map_some], hnext⟩
    rw [hlast]
    exact fun hdl => hl (Option.some.inj hdl ▸ hd)

/-- The parent's children go on with the new one. -/
theorem Attachable.hasChildren_parent {cs : List NodeId} (hp : t.get? p = some pnode)
    (hcs : t.HasChildren p pnode cs) :
    (t.attach p c).HasChildren p (relinked p c pnode.lastChild p pnode) (cs ++ [c]) := by
  have hcmem : c ∉ cs := by
    rw [hcs.mem_iff, hc.parent?_child]
    simp
  refine ⟨?_, hc.leads_next h hp hcs, hc.leads_previous hp hcs hcmem, fun d => ?_⟩
  · rw [← List.concat_eq_append]
    exact hcs.nodup.concat hcmem
  · rw [parent?_attach hc, List.mem_append, List.mem_singleton, hcs.mem_iff]
    split
    · simp [*]
    · simp [*]

/-- No other node's children change. -/
theorem Attachable.hasChildren_of_ne {cs : List NodeId} {q : NodeId} {qnode : Node} (hqp : q ≠ p)
    (hp : t.get? p = some pnode) (hcs : t.HasChildren q qnode cs) :
    (t.attach p c).HasChildren q (relinked p c pnode.lastChild q qnode) cs := by
  refine ⟨hcs.nodup, ?_, ?_, fun d => ?_⟩
  · have hfirst : (relinked p c pnode.lastChild q qnode).firstChild = qnode.firstChild :=
      if_neg fun hq => hqp hq.1
    rw [hfirst]
    refine hcs.forward.congr fun d hd => map_next_attach hp fun hlast => hqp ?_
    -- the last child of `p` is no child of `q`
    obtain ⟨ps, hps⟩ := h.exists_children hp
    have hdq := (hcs.mem_iff d).1 hd
    rw [hps.parent?_lastChild hlast] at hdq
    exact (Option.some.inj hdq).symm
  · have hlast : (relinked p c pnode.lastChild q qnode).lastChild = qnode.lastChild := if_neg hqp
    rw [hlast]
    refine hcs.backward.congr fun d hd => map_previous_attach t p fun hdc => ?_
    have hdq := (hcs.mem_iff d).1 (List.mem_reverse.1 hd)
    rw [hdc, hc.parent?_child] at hdq
    cases hdq
  · rw [parent?_attach hc, hcs.mem_iff]
    split
    · rename_i hdc
      rw [hdc, hc.parent?_child]
      simp [hqp.symm]
    · rfl

/-- The links that are written lead to nodes of the tree. -/
theorem Attachable.link_lt (hp : t.get? p = some pnode) (hn : t.get? n = some node) :
    ∀ m ∈ (relinked p c pnode.lastChild n node).links, m.index < t.size := by
  obtain ⟨cnode, hcnode, -⟩ := hc.child
  have hplt := lt_size_of_get? hp
  have hclt := lt_size_of_get? hcnode
  have hlinks := h.link_lt hn
  have hlast : ∀ l, pnode.lastChild = some l → l.index < t.size := fun l hl =>
    h.link_lt hp l (by simp [Node.links, hl])
  intro m hm
  simp only [Node.links, relinked, List.mem_filterMap, List.mem_cons, List.not_mem_nil, or_false,
    id, exists_eq_right] at hm hlinks
  grind

/-- A node that is still detached gets no siblings. -/
theorem Attachable.detached (hp : t.get? p = some pnode) (hn : t.get? n = some node)
    (hparent : (relinked p c pnode.lastChild n node).parent = none) :
    (relinked p c pnode.lastChild n node).previous = none ∧
      (relinked p c pnode.lastChild n node).next = none := by
  have hnc : n ≠ c := by
    rintro rfl
    simp [relinked] at hparent
  have hparent : node.parent = none := by simpa [relinked, hnc] using hparent
  have hlast : pnode.lastChild ≠ some n := by
    intro hlast
    obtain ⟨cs, hcs⟩ := h.exists_children hp
    have hnp := hcs.parent?_lastChild hlast
    rw [parent?_of_get? hn, hparent] at hnp
    cases hnp
  obtain ⟨hprevious, hnext⟩ := h.detached hn hparent
  simp [relinked, hnc, hlast, hprevious, hnext]

/-- Attaching a node where it may be keeps all links in agreement. -/
theorem WellLinked.attach : (t.attach p c).WellLinked := by
  obtain ⟨pnode, hp, hcontainer⟩ := hc.parent
  have hget := get?_attach_of_get? (c := c) hp
  have hsize : (t.attach p c).size = t.size := size_of_get?_map hget
  refine
    { link_lt := ?_, exists_children := ?_, detached := ?_, acyclic := hc.acyclic_attach h,
      document_iff := ?_, root := ?_, leaf := ?_ }
  · intro n node' hn' m hm
    obtain ⟨node, hn, rfl⟩ := exists_of_get?_map hget hn'
    rw [hsize]
    exact hc.link_lt h hp hn m hm
  · intro q node' hq'
    obtain ⟨node, hq, rfl⟩ := exists_of_get?_map hget hq'
    obtain ⟨cs, hcs⟩ := h.exists_children hq
    by_cases hqp : q = p
    · subst hqp
      obtain rfl : pnode = node := Option.some.inj (hp.symm.trans hq)
      exact ⟨cs ++ [c], hc.hasChildren_parent h hp hcs⟩
    · exact ⟨cs, hc.hasChildren_of_ne h hqp hp hcs⟩
  · intro n node' hn' hparent
    obtain ⟨node, hn, rfl⟩ := exists_of_get?_map hget hn'
    exact hc.detached h hp hn hparent
  · intro n node' hn'
    obtain ⟨node, hn, rfl⟩ := exists_of_get?_map hget hn'
    show node.content = .document ↔ n = .root
    exact h.document_iff hn
  · obtain ⟨node, hroot, hparent⟩ := h.root
    refine ⟨_, by rw [hget, hroot, Option.map_some], ?_⟩
    show (if NodeId.root = c then some p else node.parent) = none
    rw [if_neg (Ne.symm hc.ne_root), hparent]
  · intro n node' hn' hleaf
    obtain ⟨node, hn, rfl⟩ := exists_of_get?_map hget hn'
    change node.canHaveChildren = false at hleaf
    have hnp : n ≠ p := by
      rintro rfl
      obtain rfl : pnode = node := Option.some.inj (hp.symm.trans hn)
      rw [hcontainer] at hleaf
      cases hleaf
    simpa [relinked, hnp] using h.leaf hn hleaf

/-- The parent's children go on with the new one, and nobody else's change. -/
theorem children_attach (q : NodeId) :
    (t.attach p c).children q = if q = p then t.children q ++ [c] else t.children q := by
  obtain ⟨pnode, hp, -⟩ := hc.parent
  have hget := get?_attach_of_get? (c := c) hp
  split
  · subst q
    have hcs := hc.hasChildren_parent h hp (h.hasChildren_children hp)
    exact hcs.children_eq (by rw [hget, hp, Option.map_some])
  · rename_i hqp
    cases hq : t.get? q with
    | none =>
      rw [children_of_get?_eq_none hq]
      exact children_of_get?_eq_none (by rw [hget, hq, Option.map_none])
    | some qnode =>
      have hcs := hc.hasChildren_of_ne h hqp hp (h.hasChildren_children hq)
      exact hcs.children_eq (by rw [hget, hq, Option.map_some])

end Attach

end PageBuilder.Dom.Tree
