import Mathlib.Data.List.Basic
import Mathlib.Data.List.Nodup
import PageBuilder.Proofs.Dom.Ancestors

/-!
# Links

Every node has five links, and they say the same things more than once. `WellLinked` says that they
agree: the links from a node to its first child and on to the next siblings lead along a list, the
links from its last child back lead along the same list reversed, and the list holds exactly the
nodes whose parent the node is (`HasChildren`); parents never run in a circle.

`Tree.children` walks along this list (`hasChildren_children`), so what a change does to the links
is said by what it does to `Tree.parent?` and `Tree.children`.
-/

namespace PageBuilder.Dom

/-- The nodes that a node is linked to. -/
def Node.links (node : Node) : List NodeId :=
  [node.parent, node.firstChild, node.lastChild, node.previous, node.next].filterMap id

namespace Tree

/-- Following a link from `start` leads along some nodes and then to `stop`. -/
def Leads (t : Tree) (link : Node → Option NodeId) :
    Option NodeId → List NodeId → Option NodeId → Prop
  | start, [], stop => start = stop
  | start, c :: cs, stop =>
    start = some c ∧ ∃ node, t.get? c = some node ∧ t.Leads link (link node) cs stop

/-- The links of a node, and those among its children, agree that its children are `cs`. -/
structure HasChildren (t : Tree) (p : NodeId) (node : Node) (cs : List NodeId) : Prop where
  nodup : cs.Nodup
  /-- From the first child on, the next siblings are the rest of the list. -/
  forward : t.Leads Node.next node.firstChild cs none
  /-- From the last child on, the previous siblings are the list reversed. -/
  backward : t.Leads Node.previous node.lastChild cs.reverse none
  mem_iff : ∀ c, c ∈ cs ↔ t.parent? c = some p

/-- All links of a tree agree, and it begins with its only document node. -/
structure WellLinked (t : Tree) : Prop where
  link_lt : ∀ {n node}, t.get? n = some node → ∀ m ∈ node.links, m.index < t.size
  exists_children : ∀ {p node}, t.get? p = some node → ∃ cs, t.HasChildren p node cs
  /-- A node without a parent has no siblings. -/
  detached : ∀ {n node}, t.get? n = some node → node.parent = none →
    node.previous = none ∧ node.next = none
  /-- No node is above itself. -/
  acyclic : ∀ n, ¬ t.Above n n
  document_iff : ∀ {n node}, t.get? n = some node → (node.content = .document ↔ n = .root)
  root : ∃ node, t.get? .root = some node ∧ node.parent = none
  /-- A text has no children. -/
  leaf : ∀ {n node}, t.get? n = some node → node.canHaveChildren = false →
    node.firstChild = none ∧ node.lastChild = none

/-! ## Following a link -/

section Leads

variable {t t' : Tree} {link : Node → Option NodeId} {start stop : Option NodeId}

theorem leads_append {cs ds : List NodeId} :
    t.Leads link start (cs ++ ds) stop ↔ ∃ m, t.Leads link start cs m ∧ t.Leads link m ds stop := by
  induction cs generalizing start with
  | nil => simp [Leads]
  | cons c cs ih =>
    simp only [List.cons_append, Leads, ih]
    constructor
    · rintro ⟨hc, node, hnode, m, hcs, hds⟩
      exact ⟨m, ⟨hc, node, hnode, hcs⟩, hds⟩
    · rintro ⟨m, ⟨hc, node, hnode, hcs⟩, hds⟩
      exact ⟨hc, node, hnode, m, hcs, hds⟩

/-- Where the link is unchanged, it leads along the same nodes. -/
theorem Leads.congr {cs : List NodeId} (h : t.Leads link start cs stop)
    (hsame : ∀ c ∈ cs, (t'.get? c).map link = (t.get? c).map link) :
    t'.Leads link start cs stop := by
  induction cs generalizing start with
  | nil => exact h
  | cons c cs ih =>
    obtain ⟨hstart, node, hnode, hcs⟩ := h
    have hlink := hsame c List.mem_cons_self
    rw [hnode, Option.map_some, Option.map_eq_some_iff] at hlink
    obtain ⟨node', hnode', hlink⟩ := hlink
    refine ⟨hstart, node', hnode', ?_⟩
    rw [hlink]
    exact ih hcs fun d hd => hsame d (List.mem_cons_of_mem c hd)

theorem Leads.exists_get? {cs : List NodeId} (h : t.Leads link start cs stop) :
    ∀ c ∈ cs, ∃ node, t.get? c = some node := by
  induction cs generalizing start with
  | nil => exact fun c hc => absurd hc List.not_mem_nil
  | cons d cs ih =>
    obtain ⟨-, node, hnode, hcs⟩ := h
    intro c hc
    rcases List.mem_cons.1 hc with rfl | hc
    · exact ⟨node, hnode⟩
    · exact ih hcs c hc

theorem Leads.start_eq {cs : List NodeId} (h : t.Leads link start cs none) : start = cs.head? := by
  cases cs with
  | nil => exact h
  | cons c cs => exact h.1

/-- The last node on the way has no further link. -/
theorem Leads.link_getLast? {cs : List NodeId} (h : t.Leads link start cs none) {c : NodeId}
    (hc : cs.getLast? = some c) : (t.get? c).bind link = none := by
  obtain ⟨cs, rfl⟩ := List.getLast?_eq_some_iff.1 hc
  obtain ⟨m, -, -, node, hnode, hlast⟩ := leads_append.1 h
  rw [hnode]
  exact hlast

/-- A list of different nodes is no longer than the tree has nodes. -/
theorem Leads.length_le {cs : List NodeId} (h : t.Leads link start cs stop) (hnd : cs.Nodup) :
    cs.length ≤ t.size := by
  have hmap : (cs.map NodeId.index).Nodup := hnd.map fun m n hmn => by
    cases m
    cases n
    exact congrArg NodeId.mk hmn
  have hsub : cs.map NodeId.index ⊆ List.range t.size := by
    intro i hi
    obtain ⟨c, hc, rfl⟩ := List.mem_map.1 hi
    obtain ⟨node, hnode⟩ := h.exists_get? c hc
    exact List.mem_range.2 (lt_size_of_get? hnode)
  have hle := (hmap.subperm hsub).length_le
  rwa [List.length_map, List.length_range] at hle

theorem Leads.siblings_eq {cs : List NodeId} (h : t.Leads Node.next start cs none) {steps : ℕ}
    (hsteps : cs.length ≤ steps) : t.siblings steps start = cs := by
  induction cs generalizing start steps with
  | nil =>
    obtain rfl : start = none := h
    cases steps <;> rfl
  | cons c cs ih =>
    obtain ⟨rfl, node, hnode, hcs⟩ := h
    obtain ⟨steps, rfl⟩ := Nat.exists_eq_add_one_of_ne_zero (n := steps) (by
      simp only [List.length_cons] at hsteps
      omega)
    have hrest : t.siblings steps node.next = cs := ih hcs (by simpa using hsteps)
    simp only [siblings, hnode, hrest]

end Leads

/-! ## Children -/

variable {t : Tree} {n p : NodeId} {node : Node}

theorem children_of_get?_eq_none (hp : t.get? p = none) : t.children p = [] := by
  rw [children, hp]
  cases t.size <;> rfl

namespace HasChildren

variable {cs : List NodeId} (h : t.HasChildren p node cs)
include h

theorem firstChild_eq : node.firstChild = cs.head? := h.forward.start_eq

theorem lastChild_eq : node.lastChild = cs.getLast? := by
  rw [h.backward.start_eq, List.head?_reverse]

theorem parent?_lastChild {c : NodeId} (hc : node.lastChild = some c) : t.parent? c = some p := by
  rw [h.lastChild_eq] at hc
  exact (h.mem_iff c).1 (List.mem_of_getLast? hc)

theorem children_eq (hp : t.get? p = some node) : t.children p = cs := by
  rw [children, hp]
  exact h.forward.siblings_eq (h.forward.length_le h.nodup)

end HasChildren

namespace WellLinked

variable (h : t.WellLinked)
include h

theorem parent_lt {c : NodeId} (hc : t.parent? c = some p) : p.index < t.size := by
  obtain ⟨node, hnode, hp⟩ := exists_get?_of_parent? hc
  exact h.link_lt hnode p (by simp [Node.links, hp])

theorem grounded : t.Grounded := ⟨h.parent_lt, h.acyclic⟩

/-- The walk along the children finds them all, each once and in order. -/
theorem hasChildren_children (hp : t.get? p = some node) :
    t.HasChildren p node (t.children p) := by
  obtain ⟨cs, hcs⟩ := h.exists_children hp
  rwa [hcs.children_eq hp]

theorem mem_children_iff {c : NodeId} : c ∈ t.children p ↔ t.parent? c = some p := by
  cases hp : t.get? p with
  | some node => exact (h.hasChildren_children hp).mem_iff c
  | none =>
    rw [children_of_get?_eq_none hp]
    refine ⟨fun hc => absurd hc List.not_mem_nil, fun hc => ?_⟩
    have := h.parent_lt hc
    rw [get?_eq_none_iff] at hp
    omega

theorem nodup_children (p : NodeId) : (t.children p).Nodup := by
  cases hp : t.get? p with
  | some node => exact (h.hasChildren_children hp).nodup
  | none =>
    rw [children_of_get?_eq_none hp]
    exact List.nodup_nil

theorem root_lt : NodeId.root.index < t.size := by
  obtain ⟨node, hnode, -⟩ := h.root
  exact lt_size_of_get? hnode

theorem parent?_root : t.parent? .root = none := by
  obtain ⟨node, hnode, hparent⟩ := h.root
  rw [parent?_of_get? hnode, hparent]

/-- A node that may not have children has none. -/
theorem children_eq_nil (hn : t.get? n = some node) (hleaf : node.canHaveChildren = false) :
    t.children n = [] := by
  have hfirst := (h.leaf hn hleaf).1
  rw [(h.hasChildren_children hn).firstChild_eq, List.head?_eq_none_iff] at hfirst
  exact hfirst

end WellLinked

end Tree

end PageBuilder.Dom
