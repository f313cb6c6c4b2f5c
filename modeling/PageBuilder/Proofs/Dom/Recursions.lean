import PageBuilder.Proofs.Dom.DocumentOrder

/-!
# Recursion along a tree

`Recursion` is the body of a function that calls itself: it ends with a value, or calls the function
first and goes on with what that returns. `Runs` carries a body out, calls included, with no bound
on anything, and lists the calls that are made on the way. A call that does not return has no run.

A body that calls itself for children only, and for each once (`Tree.Descends`), always returns: on
a tree whose links agree, its run exists, is the only one, and makes one call at most for each node
below the start (`Tree.WellLinked.runsBelow`). Its value is the one that `Recursion.within` computes
with a bound on the levels, so such a bound is none.
-/

namespace PageBuilder.Dom

/-- The body of a function from `ι` to `α` that calls itself. -/
inductive Recursion (ι α : Type) where
  | done (a : α)
  /-- Calls the function, and goes on with what it returns. -/
  | call (i : ι) (next : α → Recursion ι α)

namespace Recursion

variable {ι α : Type} {body : ι → Recursion ι α} {f : ι → α} {p : Recursion ι α}
variable {a b : α} {is js : List ι} {default : α}

/-! ## Runs -/

/-- `Runs body p is a`: the program `p` makes the calls `is`, those inside of calls included, and
ends with `a`. -/
inductive Runs (body : ι → Recursion ι α) : Recursion ι α → List ι → α → Prop
  | done (a : α) : Runs body (.done a) [] a
  | call {i : ι} {next : α → Recursion ι α} {is js : List ι} {a b : α} :
      Runs body (body i) is a → Runs body (next a) js b →
        Runs body (.call i next) (i :: (is ++ js)) b

/-- A program has one run at most. -/
theorem Runs.unique (h : Runs body p is a) (h' : Runs body p js b) : js = is ∧ b = a := by
  induction h generalizing js b with
  | done a =>
    cases h'
    exact ⟨rfl, rfl⟩
  | call _ _ ih ih' =>
    cases h' with
    | call hcall hnext =>
      obtain ⟨rfl, rfl⟩ := ih hcall
      obtain ⟨rfl, rfl⟩ := ih' hnext
      exact ⟨rfl, rfl⟩

/-- What a program ends with, if calls return what `f` says. -/
def eval (f : ι → α) : Recursion ι α → α
  | done a => a
  | call i next => (next (f i)).eval f

/-- The calls that a program makes itself, if they return what `f` says. -/
def calls (f : ι → α) : Recursion ι α → List ι
  | done _ => []
  | call i next => i :: (next (f i)).calls f

/-- The function with a bound on its levels. Calls below the last level return a default. -/
def within (body : ι → Recursion ι α) (default : α) : ℕ → ι → α
  | 0, _ => default
  | levels + 1, i => (body i).eval (within body default levels)

/-- If the calls that a program makes itself return, then the program ends, and whatever it enters
is entered by one of them. -/
theorem exists_runs {β : Type} {node : ι → β} {below : β → List β}
    (h : ∀ i ∈ p.calls f, ∃ is, Runs body (body i) is (f i) ∧
      (node i :: is.map node).Sublist (below (node i))) :
    ∃ is, Runs body p is (p.eval f) ∧
      (is.map node).Sublist (((p.calls f).map node).flatMap below) := by
  induction p with
  | done a => exact ⟨[], .done a, List.nil_sublist _⟩
  | call i next ih =>
    obtain ⟨is, hrun, hsub⟩ := h i List.mem_cons_self
    obtain ⟨js, hrun', hsub'⟩ := ih (f i) fun j hj => h j (List.mem_cons_of_mem i hj)
    refine ⟨i :: (is ++ js), .call hrun hrun', ?_⟩
    rw [List.map_cons, List.map_append, ← List.cons_append, calls, List.map_cons, List.flatMap_cons]
    exact hsub.append hsub'

/-! ## Calls in a row -/

/-- Makes calls one after another, and goes on with all that they return. -/
def callAll : List ι → (List α → Recursion ι α) → Recursion ι α
  | [], next => next []
  | i :: is, next => .call i fun a => callAll is fun as => next (a :: as)

@[simp] theorem eval_callAll (f : ι → α) (is : List ι) (next : List α → Recursion ι α) :
    (callAll is next).eval f = (next (is.map f)).eval f := by
  induction is generalizing next with
  | nil => rfl
  | cons i is ih => rw [callAll, eval, ih, List.map_cons]

@[simp] theorem calls_callAll (f : ι → α) (is : List ι) (next : List α → Recursion ι α) :
    (callAll is next).calls f = is ++ (next (is.map f)).calls f := by
  induction is generalizing next with
  | nil => rfl
  | cons i is ih => rw [callAll, calls, ih, List.map_cons, List.cons_append]

end Recursion

/-! ## Down a tree -/

namespace Tree

open Recursion

variable {ι α : Type} {body : ι → Recursion ι α} {node : ι → NodeId} {default : α}
variable {t : Tree} {n : NodeId} {p : Recursion ι α}

/-- Every call that a body makes itself is for a child of the node that it was called for, and none
for the same. -/
def Descends (t : Tree) (node : ι → NodeId) (body : ι → Recursion ι α) : Prop :=
  ∀ f i, (((body i).calls f).map node).Sublist (t.children (node i))

/-- A program that is carried out for `n` ends with `a`. Its calls are for nodes below `n`, and for
each of them at most one. -/
def RunsBelow (t : Tree) (node : ι → NodeId) (body : ι → Recursion ι α) (p : Recursion ι α)
    (n : NodeId) (a : α) : Prop :=
  ∃ entered, Runs body p entered a ∧ (∀ js b, Runs body p js b → js = entered ∧ b = a) ∧
    (n :: entered.map node).Nodup ∧ ∀ m ∈ entered.map node, t.Above n m

namespace WellLinked

variable (h : t.WellLinked)
include h

/-- Nodes are entered along their parents, and that comes to an end. -/
theorem wellFounded_children : WellFounded fun c p => c ∈ t.children p := by
  refine ⟨fun n => ?_⟩
  induction n using h.grounded.induction with
  | step n ih => exact ⟨n, fun c hc => ih c (h.mem_children_iff.1 hc)⟩

/-- A function that descends returns, and enters what is below a node in document order. -/
theorem exists_runs_within (hbody : t.Descends node body) (default : α) {levels : ℕ} {i : ι}
    (hlevels : t.size - t.depth (node i) ≤ levels) :
    ∃ is, Runs body (body i) is (within body default levels i) ∧
      (node i :: is.map node).Sublist (t.preorder (node i)) := by
  have hdepth := h.depth_lt_size (node i)
  induction levels generalizing i with
  | zero => omega
  | succ levels ih =>
    have hcalls : ∀ j ∈ (body i).calls (within body default levels), ∃ is,
        Runs body (body j) is (within body default levels j) ∧
          (node j :: is.map node).Sublist (t.preorder (node j)) := by
      intro j hj
      have hchild : node j ∈ t.children (node i) :=
        (hbody _ i).subset (List.mem_map_of_mem hj)
      have hdeeper := h.grounded.depth_lt_depth (h.mem_children_iff.1 hchild)
      exact ih (by omega) (h.depth_lt_size _)
    obtain ⟨is, hrun, hsub⟩ := exists_runs hcalls
    refine ⟨is, hrun, ?_⟩
    rw [h.preorder_eq]
    exact .cons_cons _ (hsub.trans ((hbody _ i).flatMap _))

/-- Levels beyond those of the tree make no difference. -/
theorem within_eq (hbody : t.Descends node body) (default : α) {j k : ℕ} {i : ι}
    (hj : t.size - t.depth (node i) ≤ j) (hk : t.size - t.depth (node i) ≤ k) :
    within body default j i = within body default k i := by
  obtain ⟨is, hrun, -⟩ := h.exists_runs_within hbody default hj
  obtain ⟨js, hrun', -⟩ := h.exists_runs_within hbody default hk
  exact (hrun'.unique hrun).2

/-- **A program that descends from a node ends**, with the value that comes with as many levels as
there are nodes. It enters what is below the node, each at most once, and nothing else. -/
theorem runsBelow (hbody : t.Descends node body) (default : α)
    (hp : ((p.calls (within body default t.size)).map node).Sublist (t.children n)) :
    t.RunsBelow node body p n (p.eval (within body default t.size)) := by
  have hcalls : ∀ i ∈ p.calls (within body default t.size), ∃ is,
      Runs body (body i) is (within body default t.size i) ∧
        (node i :: is.map node).Sublist (t.preorder (node i)) :=
    fun i _ => h.exists_runs_within hbody default (Nat.sub_le _ _)
  obtain ⟨is, hrun, hsub⟩ := exists_runs hcalls
  have hbelow : (is.map node).Sublist ((t.children n).flatMap t.preorder) :=
    hsub.trans (hp.flatMap _)
  have hnodup := h.nodup_preorder n
  rw [h.preorder_eq] at hnodup
  refine ⟨is, hrun, fun js b hrun' => hrun.unique hrun', (hbelow.cons_cons n).nodup hnodup,
    fun m hm => ?_⟩
  obtain ⟨c, hc, hm⟩ := List.mem_flatMap.1 (hbelow.subset hm)
  exact above_iff_exists_child.2 ⟨c, h.mem_children_iff.1 hc, h.mem_preorder_iff.1 hm⟩

/-- The body of a function that descends ends with the value of the function. -/
theorem runsBelow_body (hbody : t.Descends node body) (default : α) (i : ι) :
    t.RunsBelow node body (body i) (node i) (within body default t.size i) := by
  have hmore : within body default t.size i = within body default (t.size + 1) i :=
    h.within_eq hbody default (Nat.sub_le _ _) (by omega)
  rw [hmore]
  exact h.runsBelow hbody default (hbody _ i)

end WellLinked

end Tree

end PageBuilder.Dom
