import PageBuilder.Page.Draft
import PageBuilder.Proofs.Dom.Histories
import PageBuilder.Proofs.Page.Steps

/-!
# What drafts show

`Descriptor.shown` and `Descriptor.problems` say, for a descriptor by itself, what it adds to a page
and what is wrong with it. A draft that shows something in the head and in the container
(`Draft.Shows`) shows that and what the descriptor adds once it was visited
(`Draft.Shows.visit`), and `Draft.Shows.visitAll` says the same of a whole description.
-/

namespace PageBuilder

open Dom

/-! ## Descriptors by themselves -/

/-- The element that a part asks for, as far as it can be built. -/
def Part.rose (part : Part) : Rose := ((Rose.element part.tag [] none []).build part.stages).2

/-- What is wrong with a part. -/
def Part.problems (part : Part) : List Problem :=
  match ((Rose.element part.tag [] none []).build part.stages).1 with
  | .ok () => []
  | .error e => [.field e]

/-- What a part adds to a place. -/
def Part.shown (part : Part) (place : Place) : List Rose :=
  if part.place = place then [part.rose] else []

namespace Descriptor

/-- The part that a descriptor asks for. -/
def part? (settings : Settings) : Descriptor → Option Part
  | directive s => some (Part.ofDirective s)
  | element r => r.kind?.map fun kind => Part.ofRecord settings kind r
  | invalid _ => none

/-- What a descriptor adds to a place. -/
def shown (settings : Settings) (place : Place) (x : Descriptor) : List Rose :=
  (x.part? settings).elim [] fun part => part.shown place

/-- What is wrong with the outside of a descriptor, apart from its fields. -/
def outerProblems : Descriptor → List Problem
  | directive _ => []
  | element r => if r.hasType then [] else [.missingType]
  | invalid value => [.notADescriptor value.kind]

/-- What is wrong with a descriptor. -/
def problems (settings : Settings) (x : Descriptor) : List Problem :=
  x.outerProblems ++ (x.part? settings).elim [] Part.problems

end Descriptor

/-- The diagnostics for descriptors, the first of which has a given position. -/
def diagnosticsFrom (settings : Settings) : ℕ → List Descriptor → List Diagnostic
  | _, [] => []
  | index, x :: rest =>
    (x.problems settings).map (Diagnostic.mk index) ++ diagnosticsFrom settings (index + 1) rest

/-! ## The skeleton of a page -/

/-- The node under which elements of a place go. -/
def Place.node : Place → NodeId
  | .head => ⟨2⟩
  | .root => ⟨4⟩

/-- A tree with the skeleton of a page: a head, a body and a container in it. -/
structure Skeleton (settings : Settings) (t : Tree) : Prop extends t.WellFormed where
  label?_html : t.label? ⟨1⟩ = some (.element "html" [] none)
  label?_head : t.label? ⟨2⟩ = some (.element "head" [] none)
  label?_body : t.label? ⟨3⟩ = some (.element "body" [] none)
  label?_container : t.label? ⟨4⟩ = some (.element "div" [("id", settings.rootId)] none)
  children_html : t.children ⟨1⟩ = [⟨2⟩, ⟨3⟩]
  children_body : t.children ⟨3⟩ = [⟨4⟩]

namespace Skeleton

variable {settings : Settings} {t t' : Tree} (h : Skeleton settings t)
include h

theorem exists_label?_place (place : Place) :
    ∃ tag attributes selectedIndex,
      t.label? place.node = some (.element tag attributes selectedIndex) := by
  cases place with
  | head => exact ⟨_, _, _, h.label?_head⟩
  | root => exact ⟨_, _, _, h.label?_container⟩

theorem parent?_head : t.parent? ⟨2⟩ = some ⟨1⟩ :=
  h.toWellLinked.mem_children_iff.1 (by simp [h.children_html])

theorem parent?_body : t.parent? ⟨3⟩ = some ⟨1⟩ :=
  h.toWellLinked.mem_children_iff.1 (by simp [h.children_html])

theorem parent?_container : t.parent? ⟨4⟩ = some ⟨3⟩ :=
  h.toWellLinked.mem_children_iff.1 (by simp [h.children_body])

/-- Neither place is above the other. -/
theorem not_above_place (place other : Place) : ¬ t.Above place.node other.node := by
  have hsiblings := h.toWellLinked.not_above_sibling h.parent?_head h.parent?_body
  cases place with
  | head =>
    cases other with
    | head => exact h.acyclic _
    | root =>
      rw [Tree.above_iff]
      rintro ⟨p, hp, habove⟩
      cases h.parent?_container.symm.trans hp
      rcases habove with heq | habove
      · cases heq
      · exact hsiblings habove
  | root =>
    cases other with
    | head =>
      rw [Tree.above_iff]
      rintro ⟨p, hp, habove⟩
      cases h.parent?_head.symm.trans hp
      rcases habove with heq | habove
      · cases heq
      · exact h.acyclic _
          (habove.trans ((Tree.Above.single h.parent?_body).trans (.single h.parent?_container)))
    | root => exact h.acyclic _

/-- Changes below a place leave the skeleton as it is. -/
theorem of_changedAt {place : Place} (hc : t.ChangedAt t' place.node)
    (hlabel : t'.label? place.node = t.label? place.node) : Skeleton settings t' := by
  have hlabel' : ∀ {m l}, t.label? m = some l → t'.label? m = some l := by
    intro m l hm
    by_cases hne : m = place.node
    · rw [hne, hlabel, ← hne, hm]
    · rw [hc.label?_eq hne (Tree.isSome_of_label? hm), hm]
  have hhtml : (⟨1⟩ : NodeId) ≠ place.node := by cases place <;> decide
  have hbody : (⟨3⟩ : NodeId) ≠ place.node := by cases place <;> decide
  exact
    { hc.wellFormed with
      label?_html := hlabel' h.label?_html
      label?_head := hlabel' h.label?_head
      label?_body := hlabel' h.label?_body
      label?_container := hlabel' h.label?_container
      children_html :=
        (hc.children_eq hhtml (Tree.isSome_of_label? h.label?_html)).trans h.children_html
      children_body :=
        (hc.children_eq hbody (Tree.isSome_of_label? h.label?_body)).trans h.children_body }

end Skeleton

/-! ## Drafts -/

/-- A draft whose tree has the skeleton of a page and shows something in each place. -/
structure Draft.Shows (settings : Settings) (d : Draft) (shown : Place → List Rose) : Prop where
  skeleton : Skeleton settings d.document.tree
  html_eq : d.document.html = ⟨1⟩
  parent_eq : ∀ place, d.parent place = place.node
  childViews_eq : ∀ place, d.document.tree.childViews place.node = shown place

namespace Draft

variable {settings : Settings} {d : Draft} {shown : Place → List Rose}

/-- Building a part appends a new element to its place, and then runs the stages on it. -/
theorem Shows.build_eq (h : d.Shows settings shown) (part : Part) :
    ∃ n t, appendElement d.document.tree part.place.node part.tag = (.ok n, t) ∧
      d.document.tree.Appended t part.place.node n ∧
      t.view n = some (.element part.tag [] none []) ∧
      d.build part = ((runStages n t part.stages).1,
        { d with document.tree := (runStages n t part.stages).2 }) := by
  obtain ⟨tag, attributes, selectedIndex, hplace⟩ := h.skeleton.exists_label?_place part.place
  obtain ⟨n, t, hnew, happended, hlabel⟩ :=
    appendElement_eq h.skeleton.toWellFormed hplace part.tag
  refine ⟨n, t, hnew, happended, happended.view_child hlabel, ?_⟩
  rw [Draft.build, h.parent_eq, hnew]

/-- A part that is built is shown after what was there, as far as it can be built. -/
theorem Shows.build (h : d.Shows settings shown) (part : Part) :
    ∃ d', d.build part = (((Rose.element part.tag [] none []).build part.stages).1, d') ∧
      d'.Shows settings (fun place => shown place ++ part.shown place) ∧
      d'.diagnostics = d.diagnostics := by
  have hwf := h.skeleton.toWellFormed
  obtain ⟨n, t₁, -, happended, hnew, hbuild⟩ := h.build_eq part
  obtain ⟨t₂, hrun, hchanged, hview⟩ := runStages_eq happended.wellFormed hnew rfl part.stages
  have hbelow := happended.trans_new hchanged
  rw [hrun] at hbuild
  refine ⟨{ d with document.tree := t₂ }, hbuild, ⟨?_, h.html_eq, h.parent_eq, ?_⟩, rfl⟩
  · exact h.skeleton.of_changedAt hbelow (happended.label?_parent_trans hchanged)
  · intro place
    show t₂.childViews place.node = _
    rw [← h.childViews_eq place, Part.shown]
    split
    · rename_i hplace
      rw [← hplace]
      exact happended.childViews_eq hwf hchanged hview
    · rename_i hne
      obtain ⟨tag, attributes, selectedIndex, hother⟩ := h.skeleton.exists_label?_place place
      rw [List.append_nil]
      refine hbelow.childViews_eq hwf (Tree.isSome_of_label? hother) ?_
        (h.skeleton.not_above_place place part.place)
      cases place <;> cases hpart : part.place <;> simp [hpart, Place.node] at hne ⊢

/-- Logging changes nothing about the page. -/
theorem Shows.note (h : d.Shows settings shown) (event : Log.Event) :
    (d.note event).Shows settings shown where
  skeleton := h.skeleton
  html_eq := h.html_eq
  parent_eq := fun place => by
    cases place with
    | head => exact h.parent_eq .head
    | root => exact h.parent_eq .root
  childViews_eq := h.childViews_eq

/-- Reporting a problem changes nothing about the page. -/
theorem Shows.report (h : d.Shows settings shown) (index : ℕ) (problem : Problem) :
    (d.report index problem).Shows settings shown where
  skeleton := h.skeleton
  html_eq := h.html_eq
  parent_eq := (h.note (.diagnosed ⟨index, problem⟩)).parent_eq
  childViews_eq := h.childViews_eq

theorem diagnostics_report (d : Draft) (index : ℕ) (problem : Problem) :
    (d.report index problem).diagnostics.toList = d.diagnostics.toList ++ [⟨index, problem⟩] :=
  Array.toList_push

theorem Shows.add (h : d.Shows settings shown) (index : ℕ) (part : Part) :
    (d.add index part).Shows settings (fun place => shown place ++ part.shown place) ∧
      (d.add index part).diagnostics.toList =
        d.diagnostics.toList ++ part.problems.map (Diagnostic.mk index) := by
  obtain ⟨d', hbuild, hshows, hdiagnostics⟩ := h.build part
  rw [Draft.add, hbuild, Part.problems]
  cases ((Rose.element part.tag [] none []).build part.stages).1 with
  | ok => exact ⟨hshows, by simp [hdiagnostics]⟩
  | error e => exact ⟨hshows.report index (.field e), by simp [diagnostics_report, hdiagnostics]⟩

/-- **A descriptor adds to the page what it shows by itself, and its own problems to the
diagnostics.** -/
theorem Shows.visit (h : d.Shows settings shown) (index : ℕ) (x : Descriptor) :
    (d.visit settings index x).Shows settings
        (fun place => shown place ++ x.shown settings place) ∧
      (d.visit settings index x).diagnostics.toList =
        d.diagnostics.toList ++ (x.problems settings).map (Diagnostic.mk index) := by
  cases x with
  | directive s => exact h.add index (Part.ofDirective s)
  | invalid value =>
    refine ⟨?_, diagnostics_report d index _⟩
    simpa [Draft.visit, Descriptor.shown, Descriptor.part?] using h.report index _
  | element r =>
    obtain ⟨d', hd', hshows, hdiagnostics⟩ :
        ∃ d', d' = (if r.hasType then d else d.report index .missingType) ∧
          d'.Shows settings shown ∧ d'.diagnostics.toList = d.diagnostics.toList ++
            (Descriptor.element r).outerProblems.map (Diagnostic.mk index) := by
      refine ⟨_, rfl, ?_⟩
      rw [Descriptor.outerProblems]
      split
      · exact ⟨h, by simp⟩
      · exact ⟨h.report index _, diagnostics_report d index _⟩
    rw [Draft.visit, ← hd', Descriptor.problems, List.map_append, ← List.append_assoc,
      ← hdiagnostics]
    simp only [Descriptor.shown, Descriptor.part?]
    cases r.kind? with
    | none => exact ⟨by simpa using hshows.note _, by simp [Draft.note]⟩
    | some kind => exact hshows.add index (Part.ofRecord settings kind r)

/-- A description adds to the page what its descriptors show, one after another. -/
theorem Shows.visitAll (h : d.Shows settings shown) (index : ℕ) (xs : List Descriptor) :
    (d.visitAll settings index xs).Shows settings
        (fun place => shown place ++ xs.flatMap (Descriptor.shown settings place)) ∧
      (d.visitAll settings index xs).diagnostics.toList =
        d.diagnostics.toList ++ diagnosticsFrom settings index xs := by
  induction xs generalizing d shown index with
  | nil => exact ⟨by simpa [Draft.visitAll] using h, by simp [Draft.visitAll, diagnosticsFrom]⟩
  | cons x xs ih =>
    obtain ⟨hshows, hdiagnostics⟩ := h.visit index x
    obtain ⟨hshows', hdiagnostics'⟩ := ih hshows (index + 1)
    rw [Draft.visitAll]
    refine ⟨?_, ?_⟩
    · simpa only [List.flatMap_cons, List.append_assoc] using hshows'
    · rw [hdiagnostics', hdiagnostics, diagnosticsFrom, List.append_assoc]

end Draft

/-! ## The draft to begin with -/

/-- A container is appended to the body, with its id and nothing in it. -/
theorem appended_appendContainer {d : Document} {tag : String}
    {attributes : List (String × String)} {selectedIndex : Option ℕ} (h : d.tree.Reachable)
    (hbody : d.tree.label? d.body = some (.element tag attributes selectedIndex)) (id : String) :
    d.tree.Appended (d.appendContainer id).2.tree d.body (d.appendContainer id).1 ∧
      (d.appendContainer id).2.tree.label? (d.appendContainer id).1 =
        some (.element "div" [("id", id)] none) := by
  obtain ⟨happend, happended, hlabel⟩ := Tree.append_division h.wellFormed hbody rfl id rfl
  rw [Document.tree_appendContainer h (Tree.isSome_element?_iff.2 ⟨_, _, _, hbody⟩)]
  show d.tree.Appended (((d.tree.createElement "div").2.setAttribute ⟨d.tree.size⟩ "id" id).2.append
      d.body ⟨d.tree.size⟩).2 d.body ⟨d.tree.size⟩ ∧
    (((d.tree.createElement "div").2.setAttribute ⟨d.tree.size⟩ "id" id).2.append
      d.body ⟨d.tree.size⟩).2.label? ⟨d.tree.size⟩ = _
  rw [happend]
  exact ⟨happended, hlabel⟩

theorem label?_body_new : Document.new.tree.label? ⟨3⟩ = some (.element "body" [] none) := by
  decide +kernel

/-- A new document has a head and a body with nothing in them. -/
theorem skeleton_new :
    Document.new.tree.label? ⟨1⟩ = some (.element "html" [] none) ∧
      Document.new.tree.label? ⟨2⟩ = some (.element "head" [] none) ∧
      Document.new.tree.children ⟨1⟩ = [⟨2⟩, ⟨3⟩] ∧ Document.new.tree.children ⟨2⟩ = [] ∧
      Document.new.tree.children ⟨3⟩ = [] := by
  decide +kernel

/-- Before any descriptor was visited, a draft shows the skeleton alone. -/
theorem Draft.shows_start (settings : Settings) :
    (Draft.start settings).Shows settings fun _ => [] := by
  obtain ⟨hhtml, hhead, hchildrenHtml, hchildrenHead, hchildrenBody⟩ := skeleton_new
  obtain ⟨happended, hlabel⟩ :=
    appended_appendContainer Document.Reachable.new.tree.1 label?_body_new settings.rootId
  generalize htree : (Document.new.appendContainer settings.rootId).2.tree = t at happended hlabel
  replace happended : Document.new.tree.Appended t ⟨3⟩ ⟨4⟩ := happended
  have hold : ∀ {m l}, m ≠ ⟨3⟩ → Document.new.tree.label? m = some l → t.label? m = some l :=
    fun hne hm => (happended.label?_eq hne (Tree.isSome_of_label? hm)).trans hm
  have hchildren : ∀ {m l}, m ≠ ⟨3⟩ → Document.new.tree.label? m = some l →
      t.children m = Document.new.tree.children m :=
    fun hne hm => happended.children_eq hne (Tree.isSome_of_label? hm)
  have hskeleton : Skeleton settings t :=
    { happended.wellFormed with
      label?_html := hold (by decide) hhtml
      label?_head := hold (by decide) hhead
      label?_body := happended.label?_parent.trans label?_body_new
      label?_container := hlabel
      children_html := (hchildren (by decide) hhtml).trans hchildrenHtml
      children_body :=
        happended.children_parent.trans (congrArg (· ++ [(⟨4⟩ : NodeId)]) hchildrenBody) }
  have hempty : ∀ place : Place, t.children place.node = []
    | .head => (hchildren (by decide) hhead).trans hchildrenHead
    | .root => happended.children_child
  subst htree
  refine ⟨hskeleton, rfl, fun place => by cases place <;> rfl, fun place => ?_⟩
  show ((Document.new.appendContainer settings.rootId).2.tree.children place.node).filterMap _ = []
  rw [hempty, List.filterMap_nil]

namespace Draft

variable {settings : Settings}

/-- The draft that the descriptors of a description lead to. -/
def after (settings : Settings) (xs : List Descriptor) : Draft :=
  (start settings).visitAll settings 1 xs

theorem visitAll_append (d : Draft) (index : ℕ) (xs ys : List Descriptor) :
    d.visitAll settings index (xs ++ ys) =
      (d.visitAll settings index xs).visitAll settings (index + xs.length) ys := by
  induction xs generalizing d index with
  | nil => rfl
  | cons x xs ih =>
    rw [List.cons_append, visitAll, ih, visitAll, List.length_cons, Nat.add_assoc, Nat.add_comm 1]

theorem after_concat (settings : Settings) (xs : List Descriptor) (x : Descriptor) :
    after settings (xs ++ [x]) = (after settings xs).visit settings (1 + xs.length) x :=
  visitAll_append _ 1 xs [x]

theorem shows_after (settings : Settings) (xs : List Descriptor) :
    (after settings xs).Shows settings fun place =>
      xs.flatMap (Descriptor.shown settings place) := by
  have hshows := ((shows_start settings).visitAll 1 xs).1
  simp only [List.nil_append] at hshows
  exact hshows

theorem diagnostics_after (settings : Settings) (xs : List Descriptor) :
    (after settings xs).diagnostics.toList = diagnosticsFrom settings 1 xs :=
  ((shows_start settings).visitAll 1 xs).2

end Draft

end PageBuilder
