import PageBuilder.Page.Step
import PageBuilder.Proofs.Dom.Changes
import PageBuilder.Proofs.Markup.Roses

/-!
# What steps show

Steps change the element that is built, one node of a tree with many others. `Step.apply` and
`Rose.build` say what the element shows in the end, without a tree. `runStages_eq` says that this
is what the tree shows, that no step is refused, and that nothing changes elsewhere.
-/

namespace PageBuilder

open Dom

/-! ## Steps without a tree -/

namespace Dom.Rose

/-- A node with an attribute set, if it is an element. -/
def setAttribute (name value : String) : Rose → Rose
  | element tag attributes selectedIndex children =>
    element tag (setNamed name value attributes) selectedIndex children
  | r => r

/-- A node with a selected index, if it is an element. -/
def setSelectedIndex (index : ℕ) : Rose → Rose
  | element tag attributes _ children => element tag attributes (some index) children
  | r => r

/-- A node with one more child, if it is an element. -/
def append : Rose → Rose → Rose
  | element tag attributes selectedIndex children, child =>
    element tag attributes selectedIndex (children ++ [child])
  | r, _ => r

end Dom.Rose

/-- What a step makes of an element. -/
def Step.apply : Step → Rose → Rose
  | setId id => .setAttribute "id" id
  | setAttribute name value => .setAttribute name value
  | setSelectedIndex index => .setSelectedIndex index
  | addText s => fun r => r.append (.text s)
  | addOption label => fun r => r.append (.element "option" [] none [.text label])

/-- What stages make of an element, and the error they end with. -/
def Dom.Rose.build (r : Rose) : List Stage → Except FieldError Unit × Rose
  | [] => (.ok (), r)
  | .error e :: _ => (.error e, r)
  | .ok steps :: rest => (steps.foldl (fun r step => step.apply r) r).build rest

theorem Step.isElement_apply (step : Step) (r : Rose) : (step.apply r).isElement = r.isElement := by
  cases step <;> cases r <;> rfl

theorem isElement_applyAll (steps : List Step) (r : Rose) :
    (steps.foldl (fun r step => step.apply r) r).isElement = r.isElement := by
  induction steps generalizing r with
  | nil => rfl
  | cons step steps ih => rw [List.foldl_cons, ih, step.isElement_apply]

/-! ## What steps and stages keep -/

/-- The steps that a stage may come to. -/
def Stage.All (Q : Step → Prop) (stage : Stage) : Prop :=
  ∀ steps, stage = .ok steps → ∀ step ∈ steps, Q step

theorem Stage.all_map {α : Type} {Q : Step → Prop} {f : α → List Step}
    (x : Except FieldError α) (h : ∀ a, ∀ step ∈ f a, Q step) : Stage.All Q (x.map f) := by
  intro steps hsteps
  cases x with
  | error e => cases hsteps
  | ok a =>
    cases hsteps
    exact h a

theorem Stage.all_map_singleton {α : Type} {Q : Step → Prop} {f : α → Step}
    (x : Except FieldError α) (h : ∀ a, Q (f a)) : Stage.All Q (x.map fun a => [f a]) := by
  refine Stage.all_map x fun a step hstep => ?_
  rw [List.mem_singleton.1 hstep]
  exact h a

theorem Stage.all_map_toList {α : Type} {Q : Step → Prop} {f : α → Step}
    (x : Except FieldError (Option α)) (h : ∀ a, Q (f a)) :
    Stage.All Q (x.map fun a => a.toList.map f) := by
  refine Stage.all_map x fun a step hstep => ?_
  obtain ⟨value, -, rfl⟩ := List.mem_map.1 hstep
  exact h value

theorem Stage.all_ok {Q : Step → Prop} {steps : List Step} (h : ∀ step ∈ steps, Q step) :
    Stage.All Q (.ok steps) := by
  rintro steps' heq
  cases heq
  exact h

theorem Stage.all_error {Q : Step → Prop} (e : FieldError) : Stage.All Q (.error e) := by
  rintro steps ⟨⟩

theorem Stage.All.mono {Q Q' : Step → Prop} {stage : Stage} (h : Stage.All Q stage)
    (hQ : ∀ step, Q step → Q' step) : Stage.All Q' stage :=
  fun steps hsteps step hstep => hQ step (h steps hsteps step hstep)

/-- What every step keeps is kept by steps. -/
theorem apply_induction {I : Rose → Prop} {Q : Step → Prop} {r : Rose}
    (hQ : ∀ step r, Q step → I r → I (step.apply r)) {steps : List Step}
    (hsteps : ∀ step ∈ steps, Q step) (hr : I r) :
    I (steps.foldl (fun r step => step.apply r) r) := by
  induction steps generalizing r with
  | nil => exact hr
  | cons step steps ih =>
    rw [List.forall_mem_cons] at hsteps
    exact ih hsteps.2 (hQ step r hsteps.1 hr)

/-- What every step keeps is kept by stages, wherever they end. -/
theorem build_induction {I : Rose → Prop} {Q : Step → Prop} {r : Rose}
    (hQ : ∀ step r, Q step → I r → I (step.apply r)) {stages : List Stage}
    (hstages : ∀ stage ∈ stages, Stage.All Q stage) (hr : I r) : I (r.build stages).2 := by
  induction stages generalizing r with
  | nil => exact hr
  | cons stage stages ih =>
    rw [List.forall_mem_cons] at hstages
    cases stage with
    | error e => exact hr
    | ok steps => exact ih hstages.2 (apply_induction hQ (hstages.1 steps rfl) hr)

/-! ## Appending new nodes -/

variable {t : Tree} {n p : NodeId} {r : Rose} {tag : String} {attributes : List (String × String)}
  {selectedIndex : Option ℕ}

/-- A new element is appended to an element. -/
theorem appendElement_eq (h : t.WellFormed)
    (hp : t.label? p = some (.element tag attributes selectedIndex)) (newTag : String) :
    ∃ n t', appendElement t p newTag = (.ok n, t') ∧ t.Appended t' p n ∧
      t'.label? n = some (.element newTag [] none) := by
  obtain ⟨c, t₁, hcreate⟩ : ∃ c t₁, t.createElement newTag = (c, t₁) := ⟨_, _, rfl⟩
  have hfresh : t.get? (t.createElement newTag).1 = none := Tree.get?_eq_none_iff.2 (Nat.le_refl _)
  have hwf := h.createElement newTag
  have hlabel := Tree.label?_createElement h.toNamed newTag
  have hparent := Tree.parent?_createElement (t := t) newTag
  have hchildren := Tree.children_createElement h.toWellLinked newTag
  rw [hcreate] at hfresh hwf hlabel hparent hchildren
  obtain ⟨happend, happended, hnew⟩ :=
    Tree.append_fresh h hwf hfresh hlabel hparent hchildren hp rfl
  refine ⟨c, t₁.attach p c, ?_, happended, hnew⟩
  simp only [appendElement, hcreate, happend]
  rfl

/-- A new text is appended to an element. -/
theorem appendText_eq (h : t.WellFormed)
    (hp : t.label? p = some (.element tag attributes selectedIndex)) (s : String) :
    ∃ n t', appendText t p s = (.ok (), t') ∧ t.Appended t' p n ∧ t'.label? n = some (.text s) := by
  obtain ⟨c, t₁, hcreate⟩ : ∃ c t₁, t.createText s = (c, t₁) := ⟨_, _, rfl⟩
  have hfresh : t.get? (t.createText s).1 = none := Tree.get?_eq_none_iff.2 (Nat.le_refl _)
  have hwf := h.createText s
  have hlabel := Tree.label?_createText t s
  have hparent := Tree.parent?_createText (t := t) s
  have hchildren := Tree.children_createText h.toWellLinked s
  rw [hcreate] at hfresh hwf hlabel hparent hchildren
  obtain ⟨happend, happended, hnew⟩ :=
    Tree.append_fresh h hwf hfresh hlabel hparent hchildren hp rfl
  refine ⟨c, t₁.attach p c, ?_, happended, hnew⟩
  simp only [appendText, hcreate, happend]
  rfl

/-! ## Steps in a tree -/

/-- Once a child is appended to an element and built, the element shows it. -/
theorem view_append {t₁ t₂ : Tree} {c : NodeId} {child : Rose} (h : t.WellFormed)
    (hn : t.view n = some r) (hr : r.isElement = true) (ha : t.Appended t₁ n c)
    (hc : t₁.ChangedAt t₂ c) (hchild : t₂.view c = some child) :
    t.ChangedAt t₂ n ∧ t₂.view n = some (r.append child) := by
  cases r with
  | document | text => cases hr
  | element tag attributes selectedIndex children =>
    obtain ⟨hlabel, hchildren⟩ := h.toWellLinked.view_eq_element_iff.1 hn
    refine ⟨ha.trans_new hc, hc.wellFormed.toWellLinked.view_eq_element_iff.2 ⟨?_, ?_⟩⟩
    · rw [ha.label?_parent_trans hc, hlabel]
    · rw [ha.childViews_eq h hc hchild, hchildren]

/-- An element whose label changes alone shows it above the children it has. -/
theorem view_relabel {t' : Tree} {children : List Rose} (h : t.WellFormed)
    (hn : t.view n = some (.element tag attributes selectedIndex children)) (hc : t.ChangedAt t' n)
    (hchildren : t'.children n = t.children n) {attributes' : List (String × String)}
    {selectedIndex' : Option ℕ}
    (hlabel : t'.label? n = some (.element tag attributes' selectedIndex')) :
    t'.view n = some (.element tag attributes' selectedIndex' children) := by
  refine hc.wellFormed.toWellLinked.view_eq_element_iff.2 ⟨hlabel, ?_⟩
  rw [hc.childViews_self_eq h hchildren]
  exact (h.toWellLinked.view_eq_element_iff.1 hn).2

/-- A step is never refused, and makes of the element what it should. -/
theorem Step.run_eq (h : t.WellFormed) (hn : t.view n = some r) (hr : r.isElement = true)
    (step : Step) :
    ∃ t', step.run n t = (.ok (), t') ∧ t.ChangedAt t' n ∧ t'.view n = some (step.apply r) := by
  cases r with
  | document | text => cases hr
  | element tag attributes selectedIndex children =>
    obtain ⟨hlabel, -⟩ := h.toWellLinked.view_eq_element_iff.1 hn
    obtain ⟨e, he⟩ := Option.isSome_iff_exists.1 ((Markup.isElement_of_view h hn).trans hr)
    have hset : ∀ name value, ∃ t', t.setAttribute n name value = (.ok (), t') ∧
        t.ChangedAt t' n ∧ t'.view n =
          some (.element tag (setNamed name value attributes) selectedIndex children) := by
      intro name value
      have hchanged := Tree.changedAt_setAttribute h n name value
      refine ⟨_, Prod.ext (Tree.setAttribute_fst_of_element? he name value) rfl, hchanged, ?_⟩
      refine view_relabel h hn hchanged (by rw [Tree.children_setAttribute h.toWellLinked]) ?_
      rw [Tree.label?_setAttribute h.toNamed, if_pos rfl, hlabel]
      rfl
    cases step with
    | setId id => exact hset "id" id
    | setAttribute name value => exact hset name value
    | setSelectedIndex index =>
      have hchanged := Tree.changedAt_setSelectedIndex h n index
      refine ⟨_, Prod.ext (Tree.setSelectedIndex_fst_of_element? he index) rfl, hchanged, ?_⟩
      refine view_relabel h hn hchanged (by rw [Tree.children_setSelectedIndex h.toWellLinked]) ?_
      rw [Tree.label?_setSelectedIndex, if_pos rfl, hlabel]
      rfl
    | addText s =>
      obtain ⟨c, t', hrun, happended, hc⟩ := appendText_eq h hlabel s
      exact ⟨t', hrun, view_append h hn hr happended (.refl happended.wellFormed c)
        (happended.view_child hc)⟩
    | addOption label =>
      obtain ⟨c, t₁, hrun, happended, hc⟩ := appendElement_eq h hlabel "option"
      have hview := happended.view_child hc
      obtain ⟨d, t₂, hrun', happended', hd⟩ := appendText_eq happended.wellFormed hc label
      obtain ⟨hchanged, hoption⟩ := view_append happended.wellFormed hview rfl happended'
        (.refl happended'.wellFormed d) (happended'.view_child hd)
      refine ⟨t₂, ?_, view_append h hn hr happended hchanged hoption⟩
      rw [Step.run, hrun]
      exact hrun'

theorem runSteps_eq (h : t.WellFormed) (hn : t.view n = some r) (hr : r.isElement = true)
    (steps : List Step) :
    ∃ t', runSteps n t steps = (.ok (), t') ∧ t.ChangedAt t' n ∧
      t'.view n = some (steps.foldl (fun r step => step.apply r) r) := by
  induction steps generalizing t r with
  | nil => exact ⟨t, rfl, .refl h n, hn⟩
  | cons step steps ih =>
    obtain ⟨t₁, hrun, hchanged, hview⟩ := step.run_eq h hn hr
    obtain ⟨t₂, hruns, hchanged', hview'⟩ :=
      ih hchanged.wellFormed hview ((step.isElement_apply r).trans hr)
    refine ⟨t₂, ?_, hchanged.trans hchanged', hview'⟩
    rw [runSteps, hrun]
    exact hruns

/-- **What stages make of an element in a tree**: they end as they do without one, and the tree
shows what they make of it, and elsewhere what it showed before. -/
theorem runStages_eq (h : t.WellFormed) (hn : t.view n = some r) (hr : r.isElement = true)
    (stages : List Stage) :
    ∃ t', runStages n t stages = ((r.build stages).1, t') ∧ t.ChangedAt t' n ∧
      t'.view n = some (r.build stages).2 := by
  induction stages generalizing t r with
  | nil => exact ⟨t, rfl, .refl h n, hn⟩
  | cons stage stages ih =>
    cases stage with
    | error e => exact ⟨t, rfl, .refl h n, hn⟩
    | ok steps =>
      obtain ⟨t₁, hrun, hchanged, hview⟩ := runSteps_eq h hn hr steps
      obtain ⟨t₂, hruns, hchanged', hview'⟩ :=
        ih hchanged.wellFormed hview ((isElement_applyAll steps r).trans hr)
      refine ⟨t₂, ?_, hchanged.trans hchanged', hview'⟩
      rw [runStages, hrun]
      exact hruns

end PageBuilder
