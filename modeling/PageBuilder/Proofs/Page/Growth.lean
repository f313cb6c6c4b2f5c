import PageBuilder.Proofs.Dom.Paths
import PageBuilder.Proofs.Page.Drafts

/-!
# How pages grow

Whatever a descriptor asks for, a page changes in one way: a new node with what is below it comes in
at the end of a place, and all that was there before stays (`Draft.Grown`). Each new node is
appended as soon as it is created, so none is left detached (`extends_runStages`).

The skeleton of a page is therefore never touched, and every node hangs in it
(`Draft.whole_after`, `Draft.attached_after`).
-/

namespace PageBuilder

open Dom

/-! ## New nodes are appended -/

variable {t : Tree} {n p : NodeId} {r : Rose}

namespace Dom.Tree

theorem size_attach (t : Tree) (p c : NodeId) : (t.attach p c).size = t.size :=
  size_of_get?_map (get?_attach t p c)

theorem size_append (t : Tree) (p c : NodeId) : (t.append p c).2.size = t.size := by
  rcases t.append_snd_eq p c with happend | happend
  · rw [happend]
  · rw [happend, size_attach]

end Dom.Tree

theorem size_appendElement (t : Tree) (p : NodeId) (tag : String) :
    (appendElement t p tag).2.size = t.size + 1 := by
  rw [appendElement, Tree.createElement_eq]
  exact (Tree.size_append _ _ _).trans (Tree.size_add (t.withName tag) _)

theorem size_appendText (t : Tree) (p : NodeId) (s : String) :
    (appendText t p s).2.size = t.size + 1 :=
  (Tree.size_append _ _ _).trans (Tree.size_add t _)

theorem extends_appendElement {tag : String} {attributes : List (String × String)}
    {selectedIndex : Option ℕ} (h : t.WellFormed)
    (hp : t.label? p = some (.element tag attributes selectedIndex)) (newTag : String) :
    t.Extends (appendElement t p newTag).2 := by
  have hsize := size_appendElement t p newTag
  obtain ⟨n, t', hrun, happended, -⟩ := appendElement_eq h hp newTag
  rw [hrun] at hsize ⊢
  refine happended.toExtends h (.tail (.single ⟨.createElement newTag, rfl⟩)
    ⟨.append p (t.createElement newTag).1, ?_⟩) hsize
  simp only [appendElement, Operation.run] at hrun ⊢
  generalize (t.createElement newTag).2.append p (t.createElement newTag).1 = answer at hrun ⊢
  obtain ⟨result, t₁⟩ := answer
  cases result with
  | error e => cases hrun
  | ok => exact congrArg (Prod.mk _) (Prod.ext_iff.1 hrun).2

theorem extends_appendText {tag : String} {attributes : List (String × String)}
    {selectedIndex : Option ℕ} (h : t.WellFormed)
    (hp : t.label? p = some (.element tag attributes selectedIndex)) (s : String) :
    t.Extends (appendText t p s).2 := by
  have hsize := size_appendText t p s
  obtain ⟨n, t', hrun, happended, -⟩ := appendText_eq h hp s
  rw [hrun] at hsize ⊢
  exact happended.toExtends h (.tail (.single ⟨.createText s, rfl⟩)
    ⟨.append p (t.createText s).1, hrun⟩) hsize

/-- No step is refused or leaves a new node detached. -/
theorem Step.extends_run (h : t.WellFormed) (hn : t.view n = some r) (hr : r.isElement = true)
    (step : Step) : t.Extends (step.run n t).2 := by
  cases r with
  | document | text => cases hr
  | element tag attributes selectedIndex children =>
    obtain ⟨hlabel, -⟩ := h.toWellLinked.view_eq_element_iff.1 hn
    obtain ⟨e, he⟩ := Option.isSome_iff_exists.1 ((Markup.isElement_of_view h hn).trans hr)
    cases step with
    | setId id => exact Tree.extends_setAttribute he "id" id
    | setAttribute name value => exact Tree.extends_setAttribute he name value
    | setSelectedIndex index => exact Tree.extends_setSelectedIndex he index
    | addText s => exact extends_appendText h hlabel s
    | addOption label =>
      have hextends := extends_appendElement h hlabel "option"
      obtain ⟨c, t₁, hrun, happended, hc⟩ := appendElement_eq h hlabel "option"
      rw [hrun] at hextends
      rw [Step.run, hrun]
      exact hextends.trans (extends_appendText happended.wellFormed hc label)

theorem extends_runSteps (h : t.WellFormed) (hn : t.view n = some r) (hr : r.isElement = true)
    (steps : List Step) : t.Extends (runSteps n t steps).2 := by
  induction steps generalizing t r with
  | nil => exact .refl t
  | cons step steps ih =>
    have hextends := step.extends_run h hn hr
    obtain ⟨t₁, hrun, hchanged, hview⟩ := step.run_eq h hn hr
    rw [hrun] at hextends
    rw [runSteps, hrun]
    exact hextends.trans (ih hchanged.wellFormed hview ((step.isElement_apply r).trans hr))

theorem extends_runStages (h : t.WellFormed) (hn : t.view n = some r) (hr : r.isElement = true)
    (stages : List Stage) : t.Extends (runStages n t stages).2 := by
  induction stages generalizing t r with
  | nil => exact .refl t
  | cons stage stages ih =>
    cases stage with
    | error e => exact .refl t
    | ok steps =>
      have hextends := extends_runSteps h hn hr steps
      obtain ⟨t₁, hrun, hchanged, hview⟩ := runSteps_eq h hn hr steps
      rw [hrun] at hextends
      rw [runStages, hrun]
      exact hextends.trans (ih hchanged.wellFormed hview ((isElement_applyAll steps r).trans hr))

/-! ## Tags -/

/-- The tag of a node, if it is an element. -/
def Dom.Rose.tag? : Rose → Option String
  | element tag _ _ _ => some tag
  | _ => none

theorem tag?_of_view (h : t.WellFormed) (hr : t.view n = some r) : t.tag? n = r.tag? := by
  obtain ⟨node, hn, rfl⟩ := h.toWellLinked.exists_get?_of_view hr
  rw [Tree.tag?, Tree.element?, hn, Option.bind_some, Node.element?]
  cases node.content <;> rfl

theorem Step.tag?_apply (step : Step) (r : Rose) : (step.apply r).tag? = r.tag? := by
  cases step <;> cases r <;> rfl

/-- However far a part was built, it has its tag. -/
theorem Part.tag?_rose (part : Part) : part.rose.tag? = some part.tag :=
  build_induction (I := fun r => r.tag? = some part.tag) (Q := fun _ => True)
    (fun step r _ hr => (step.tag?_apply r).trans hr) (fun _ _ _ _ _ _ => trivial) rfl

/-! ## Growing pages -/

/-- A second draft whose page differs from that of the first by a new node, with what is below it,
at the end of a parent's children. -/
structure Draft.Grown (d d' : Draft) (p n : NodeId) : Prop
    extends d.document.tree.Extends d'.document.tree where
  fresh : d.document.tree.get? n = none
  children_parent : d'.document.tree.children p = d.document.tree.children p ++ [n]
  label?_eq : ∀ {m}, (d.document.tree.get? m).isSome →
    d'.document.tree.label? m = d.document.tree.label? m
  children_eq : ∀ {m}, m ≠ p → (d.document.tree.get? m).isSome →
    d'.document.tree.children m = d.document.tree.children m
  html_eq : d'.document.html = d.document.html
  head_eq : d'.document.head = d.document.head
  body_eq : d'.document.body = d.document.body
  root_eq : d'.root = d.root

/-- The diagnostics for an element that was not finished. -/
def diagnosticsOf (index : ℕ) : Except FieldError Unit → List Diagnostic
  | .ok () => []
  | .error e => [⟨index, .field e⟩]

namespace Draft

variable {settings : Settings} {d d' : Draft} {shown : Place → List Rose}

/-- Adding a part makes a page grow by what is built of it, and reports the error that ended it. -/
theorem Shows.grown_add (h : d.Shows settings shown) (index : ℕ) (part : Part) :
    ∃ n, d.Grown (d.add index part) part.place.node n ∧
      (d.add index part).document.tree.view n = some part.rose ∧
      (d.add index part).diagnostics.toList = d.diagnostics.toList ++
        diagnosticsOf index ((Rose.element part.tag [] none []).build part.stages).1 := by
  have hwf := h.skeleton.toWellFormed
  obtain ⟨n, t₁, hnew, happended, hview₁, hbuild⟩ := h.build_eq part
  obtain ⟨tag, attributes, selectedIndex, hplace⟩ := h.skeleton.exists_label?_place part.place
  have hextends := extends_appendElement hwf hplace part.tag
  rw [hnew] at hextends
  replace hextends := hextends.trans (extends_runStages happended.wellFormed hview₁ rfl part.stages)
  obtain ⟨t₂, hrun, hchanged, hview₂⟩ := runStages_eq happended.wellFormed hview₁ rfl part.stages
  rw [hrun] at hbuild hextends
  have hbelow := happended.trans_new hchanged
  have hparent := happended.isSome happended.exists_parent
  have hgrown : d.Grown { d with document.tree := t₂ } part.place.node n :=
    { hextends with
      fresh := happended.fresh
      children_parent :=
        (hchanged.children_eq happended.parent_ne hparent).trans happended.children_parent
      label?_eq := fun {m} hm => by
        by_cases hmp : m = part.place.node
        · rw [hmp]
          exact happended.label?_parent_trans hchanged
        · exact hbelow.label?_eq hmp hm
      children_eq := fun hmp hm => hbelow.children_eq hmp hm
      html_eq := rfl
      head_eq := rfl
      body_eq := rfl
      root_eq := rfl }
  rw [Draft.add, hbuild]
  cases ((Rose.element part.tag [] none []).build part.stages).1 with
  | ok => exact ⟨n, hgrown, hview₂, by simp [diagnosticsOf]⟩
  | error e => exact ⟨n, { hgrown with }, hview₂, diagnostics_report _ index (.field e)⟩

/-- A record that asks for an element has a type. -/
theorem hasType_of_kind? {r : Record} {kind : ElementKind} (hkind : r.kind? = some kind) :
    r.hasType = true := by
  obtain ⟨name, hname, hkind⟩ := Option.bind_eq_some_iff.1 hkind
  have hne : name ≠ "" := by
    rintro rfl
    cases hkind
  simp [Record.hasType, hname, hne]

theorem visit_of_kind? {r : Record} {kind : ElementKind} (hkind : r.kind? = some kind) (d : Draft)
    (index : ℕ) :
    d.visit settings index (.element r) = d.add index (Part.ofRecord settings kind r) := by
  rw [visit, hasType_of_kind? hkind, if_pos rfl]
  simp only [hkind]

/-- A descriptor that asks for nothing leaves the page as it is. -/
theorem document_visit_of_part?_eq_none {x : Descriptor} (hx : x.part? settings = none) (d : Draft)
    (index : ℕ) :
    (d.visit settings index x).document = d.document ∧
      (d.visit settings index x).root = d.root := by
  cases x with
  | directive s => cases hx
  | invalid value => exact ⟨rfl, rfl⟩
  | element r =>
    have hkind : r.kind? = none := Option.map_eq_none_iff.1 hx
    rw [visit]
    simp only [hkind]
    split <;> exact ⟨rfl, rfl⟩

/-- A descriptor that asks for a part adds it. -/
theorem visit_of_part? {x : Descriptor} {part : Part} (hx : x.part? settings = some part)
    (d : Draft) (index : ℕ) : d.visit settings index x = d.add index part := by
  cases x with
  | directive s =>
    cases hx
    rfl
  | invalid value => cases hx
  | element r =>
    obtain ⟨kind, hkind, rfl⟩ := Option.map_eq_some_iff.1 hx
    exact visit_of_kind? hkind d index

/-! ## From the start -/

/-- A draft whose page hangs together: the root holds the page and nothing else, the body is where
it was, and the tree came from that of a page without content. -/
structure Whole (settings : Settings) (d : Draft) : Prop where
  children_root : d.document.tree.children .root = [⟨1⟩]
  body_eq : d.document.body = ⟨3⟩
  extends_start : (start settings).document.tree.Extends d.document.tree

theorem Whole.of_grown {place : Place} {n : NodeId} (hd : d.Whole settings)
    (h : d.Shows settings shown) (hgrown : d.Grown d' place.node n) : d'.Whole settings where
  children_root := by
    obtain ⟨root, hroot, -⟩ := h.skeleton.root
    have hne : NodeId.root ≠ place.node := by cases place <;> decide
    rw [hgrown.children_eq hne (by rw [hroot]; rfl), hd.children_root]
  body_eq := hgrown.body_eq.trans hd.body_eq
  extends_start := hd.extends_start.trans hgrown.toExtends

theorem size_appendContainer (d : Document) (id : String) :
    (d.appendContainer id).2.tree.size = d.tree.size + 1 := by
  rw [Document.appendContainer]
  exact (Tree.size_attach _ _ _).trans
    ((Tree.size_updateElement _ _ _).trans (Tree.size_add _ _))

theorem attached_new : Document.new.tree.Attached := by
  have hall : ∀ i < 4, i ≠ 0 → (Document.new.tree.parent? ⟨i⟩).isSome := by decide +kernel
  intro n hn hroot
  refine hall n.index hn fun h => hroot ?_
  cases n
  exact congrArg NodeId.mk h

theorem appended_start (settings : Settings) :
    Document.new.tree.Appended (start settings).document.tree ⟨3⟩ ⟨4⟩ :=
  (appended_appendContainer Document.Reachable.new.tree.1 label?_body_new settings.rootId).1

theorem attached_start (settings : Settings) : (start settings).document.tree.Attached := by
  have happended := appended_start settings
  exact attached_new.of_parent? (happended.parent?_eq Document.Reachable.new.tree.1.wellFormed)
    (happended.isSome_parent?_new (size_appendContainer Document.new settings.rootId))

theorem whole_start (settings : Settings) : (start settings).Whole settings := by
  have happended := appended_start settings
  have hchildren : Document.new.tree.children .root = [⟨1⟩] := by decide +kernel
  have hroot : (Document.new.tree.get? .root).isSome := by decide +kernel
  exact ⟨(happended.children_eq (by decide) hroot).trans hchildren, rfl, .refl _⟩

/-- **However far a description was followed, the page hangs together.** -/
theorem whole_after (settings : Settings) (xs : List Descriptor) :
    (after settings xs).Whole settings := by
  induction xs using List.reverseRecOn with
  | nil => exact whole_start settings
  | append_singleton xs x ih =>
    have hshows := shows_after settings xs
    rw [after_concat]
    cases hx : x.part? settings with
    | none =>
      obtain ⟨hdocument, -⟩ :=
        document_visit_of_part?_eq_none hx (after settings xs) (1 + xs.length)
      exact ⟨by rw [hdocument, ih.children_root], by rw [hdocument, ih.body_eq],
        by rw [hdocument]; exact ih.extends_start⟩
    | some part =>
      obtain ⟨n, hgrown, -⟩ := hshows.grown_add (1 + xs.length) part
      rw [visit_of_part? hx]
      exact ih.of_grown hshows hgrown

theorem attached_after (settings : Settings) (xs : List Descriptor) :
    (after settings xs).document.tree.Attached :=
  (whole_after settings xs).extends_start.attached (attached_start settings)

theorem reachable_after (settings : Settings) (xs : List Descriptor) :
    (after settings xs).document.tree.Reachable :=
  (Document.Reachable.new.appendContainer settings.rootId).tree.1.of_granted
    (whole_after settings xs).extends_start.granted

end Draft

end PageBuilder
