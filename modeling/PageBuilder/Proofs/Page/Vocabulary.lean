import PageBuilder.Files.FileMap
import PageBuilder.Page.Compile
import PageBuilder.Proofs.Dom.Numbering
import PageBuilder.Proofs.Dom.Refusals
import PageBuilder.Proofs.Page.Parts
import PageBuilder.Proofs.Page.Reports

/-!
# The vocabulary of pages

A tree begins with the names that pages are made of, and a page needs no others but those that its
description brings along: an input may bind its action to an attribute of any name
(`Record.Binds`). `compile_names` says that the table of a page holds just these.

A name enters the table as soon as it is met, so the names are followed through the steps in which
elements are built (`names_runStages`) and through a whole description (`Draft.names_after`). Which
names a record meets depends on how far its tasks come (`mem_namesMet_tasks_append_iff`).
-/

namespace PageBuilder

open Dom Files

variable {settings : Settings} {t : Tree} {n : NodeId} {r : Record} {e : Rose} {name : String}

/-! ## Names that are met -/

/-- The names that a step meets. -/
def Step.names : Step → List String
  | setId _ => ["id"]
  | setAttribute name _ => [name]
  | setSelectedIndex _ | addText _ => []
  | addOption _ => ["option"]

/-- The names that stages meet, up to the first error. -/
def namesMet : List Stage → List String
  | [] => []
  | .error _ :: _ => []
  | .ok steps :: rest => steps.flatMap Step.names ++ namesMet rest

/-- The names that a part meets: its tag, and those of its stages. -/
def Part.names (part : Part) : List String := part.tag :: namesMet part.stages

/-- The names that a descriptor meets. -/
def Descriptor.names (settings : Settings) (x : Descriptor) : List String :=
  (x.part? settings).elim [] Part.names

/-! ## Names in a tree -/

theorem Dom.Tree.names_setAttribute (t : Tree) (n : NodeId) (name value : String) :
    (t.setAttribute n name value).2.names = t.names.after [name] :=
  names_updateElement _ _ _

theorem names_appendElement (t : Tree) (p : NodeId) (tag : String) :
    (appendElement t p tag).2.names = t.names.after [tag] :=
  Tree.names_append _ _ _

theorem names_appendText (t : Tree) (p : NodeId) (s : String) :
    (appendText t p s).2.names = t.names :=
  Tree.names_append _ _ _

/-- A step meets its names, whether it is refused or not. -/
theorem Step.names_run (n : NodeId) (t : Tree) (step : Step) :
    (step.run n t).2.names = t.names.after step.names := by
  cases step with
  | setId id => exact t.names_setAttribute n "id" id
  | setAttribute name value => exact t.names_setAttribute n name value
  | setSelectedIndex index => exact Tree.names_updateElement _ _ _
  | addText s => exact names_appendText t n s
  | addOption label =>
    have hnames := names_appendElement t n "option"
    rw [run]
    split
    · rename_i heq
      rwa [heq] at hnames
    · rename_i heq
      rw [heq] at hnames
      exact (names_appendText _ _ label).trans hnames

theorem names_runSteps (h : t.WellFormed) (hn : t.view n = some e) (he : e.isElement = true)
    (steps : List Step) :
    (runSteps n t steps).2.names = t.names.after (steps.flatMap Step.names) := by
  induction steps generalizing t e with
  | nil => rfl
  | cons step steps ih =>
    have hnames := step.names_run n t
    obtain ⟨t₁, hrun, hchanged, hview⟩ := step.run_eq h hn he
    rw [hrun] at hnames
    rw [runSteps, hrun, List.flatMap_cons, NameTable.after_append, ← hnames]
    exact ih hchanged.wellFormed hview ((step.isElement_apply e).trans he)

/-- **Stages meet their names** up to the first error, and no step is refused. -/
theorem names_runStages (h : t.WellFormed) (hn : t.view n = some e) (he : e.isElement = true)
    (stages : List Stage) :
    (runStages n t stages).2.names = t.names.after (namesMet stages) := by
  induction stages generalizing t e with
  | nil => rfl
  | cons stage stages ih =>
    cases stage with
    | error x => rfl
    | ok steps =>
      have hnames := names_runSteps h hn he steps
      obtain ⟨t₁, hrun, hchanged, hview⟩ := runSteps_eq h hn he steps
      rw [hrun] at hnames
      rw [runStages, hrun, namesMet, NameTable.after_append, ← hnames]
      exact ih hchanged.wellFormed hview ((isElement_applyAll steps e).trans he)

/-! ## Names in a draft -/

namespace Draft

variable {d : Draft} {shown : Place → List Rose}

theorem Shows.names_add (h : d.Shows settings shown) (index : ℕ) (part : Part) :
    (d.add index part).document.tree.names = d.document.tree.names.after part.names := by
  obtain ⟨n, t₁, hnew, happended, hview, hbuild⟩ := h.build_eq part
  have hnames := names_appendElement d.document.tree part.place.node part.tag
  rw [hnew] at hnames
  have hstages : (runStages n t₁ part.stages).2.names = d.document.tree.names.after part.names := by
    rw [names_runStages happended.wellFormed hview rfl, hnames]
    rfl
  rw [Draft.add, hbuild]
  cases (runStages n t₁ part.stages).1 with
  | ok => exact hstages
  | error x => exact hstages

theorem Shows.names_visit (h : d.Shows settings shown) (index : ℕ) (x : Descriptor) :
    (d.visit settings index x).document.tree.names =
      d.document.tree.names.after (x.names settings) := by
  rw [Descriptor.names]
  cases hx : x.part? settings with
  | none => rw [(document_visit_of_part?_eq_none hx d index).1]; rfl
  | some part =>
    rw [visit_of_part? hx]
    exact h.names_add index part

theorem names_start (settings : Settings) :
    (start settings).document.tree.names = NameTable.initial := by
  have hnew : Document.new.tree.names = NameTable.initial := by decide +kernel
  have hknown : NameTable.initial.after ["div", "id"] = NameTable.initial := by decide +kernel
  show (Document.new.appendContainer settings.rootId).2.tree.names = _
  rw [Document.tree_appendContainer Document.Reachable.new.tree.1
    (Tree.isSome_element?_iff.2 ⟨_, _, _, label?_body_new⟩)]
  show ((((Document.new.tree.createElement "div").2.setAttribute ⟨Document.new.tree.size⟩ "id"
    settings.rootId).2.append Document.new.body ⟨Document.new.tree.size⟩).2).names = _
  rw [Tree.names_append, Tree.names_setAttribute, ← hknown, ← hnew]
  rfl

/-- **The names that a description leads to.** -/
theorem names_after (settings : Settings) (xs : List Descriptor) :
    (after settings xs).document.tree.names =
      NameTable.initial.after (xs.flatMap (Descriptor.names settings)) := by
  induction xs using List.reverseRecOn with
  | nil => exact names_start settings
  | append_singleton xs x ih =>
    rw [after_concat, (shows_after settings xs).names_visit, ih, List.flatMap_append,
      List.flatMap_singleton, NameTable.after_append]

end Draft

/-! ## Names of tasks -/

/-- Steps that meet names of the vocabulary alone. -/
def Step.Known (step : Step) : Prop := ∀ name ∈ step.names, name ∈ NameTable.vocabulary

theorem mem_vocabulary_of_mem_namesMet {stages : List Stage}
    (h : ∀ stage ∈ stages, Stage.All Step.Known stage) (hname : name ∈ namesMet stages) :
    name ∈ NameTable.vocabulary := by
  induction stages with
  | nil => cases hname
  | cons stage stages ih =>
    rw [List.forall_mem_cons] at h
    cases stage with
    | error x => cases hname
    | ok steps =>
      rcases List.mem_append.1 hname with hfirst | hrest
      · obtain ⟨step, hstep, hmem⟩ := List.mem_flatMap.1 hfirst
        exact h.1 steps rfl step hstep name hmem
      · exact ih h.2 hrest

/-- Tasks that meet names of the vocabulary alone, whatever the record holds. -/
def Task.Known : Task → Prop
  | id | text _ | select | options => True
  | required _ name | optional _ name | fixed name _ | action name => name ∈ NameTable.vocabulary
  | slot => False

theorem Task.Known.all_stages {task : Task} (h : task.Known) (r : Record) :
    ∀ stage ∈ task.stages r, Stage.All Step.Known stage := by
  have hset : ∀ {name}, name ∈ NameTable.vocabulary → ∀ value,
      (Step.setAttribute name value).Known :=
    fun hname value => List.forall_mem_singleton.2 hname
  have hnone : ∀ name ∈ ([] : List String), name ∈ NameTable.vocabulary :=
    fun name hname => absurd hname List.not_mem_nil
  have hid : "id" ∈ NameTable.vocabulary := by decide
  have hoption : "option" ∈ NameTable.vocabulary := by decide
  cases task with
  | slot => cases h
  | options =>
    refine fun stage hstage => (r.all_optionStages stage hstage).mono ?_
    rintro step ⟨label, rfl⟩
    exact List.forall_mem_singleton.2 hoption
  | select =>
    exact List.forall_mem_singleton.2 (Stage.all_ok (List.forall_mem_singleton.2 hnone))
  | fixed name value =>
    exact List.forall_mem_singleton.2 (Stage.all_ok (List.forall_mem_singleton.2 (hset h value)))
  | text field =>
    exact List.forall_mem_singleton.2 (Stage.all_map_singleton _ fun _ => hnone)
  | required field name =>
    exact List.forall_mem_singleton.2 (Stage.all_map_singleton _ (hset h))
  | id =>
    exact List.forall_mem_singleton.2
      (Stage.all_map_toList _ fun _ => List.forall_mem_singleton.2 hid)
  | optional field name | action name =>
    exact List.forall_mem_singleton.2 (Stage.all_map_toList _ (hset h))

theorem mem_vocabulary_of_tasks {tasks : List Task} (h : ∀ task ∈ tasks, task.Known)
    (hname : name ∈ namesMet (tasks.flatMap (Task.stages r))) : name ∈ NameTable.vocabulary := by
  refine mem_vocabulary_of_mem_namesMet (fun stage hstage => ?_) hname
  obtain ⟨task, htask, hmem⟩ := List.mem_flatMap.1 hstage
  exact (h task htask).all_stages r stage hmem

/-- The name that a record gives is met if there is an action to bind to it. -/
theorem mem_namesMet_slot_iff :
    name ∈ namesMet (Task.slot.stages r) ↔
      (∃ s, r.readAction = .text s) ∧ r.readText "action_type" = .text name ∧
        isAttributeName name = true := by
  rw [Task.stages, Record.action_eq, Record.actionType, Record.scalar_eq]
  cases r.readAction with
  | absent | bad => simp [Reading.result, namesMet]
  | text s =>
    cases r.readText "action_type" with
    | absent | bad => simp [Reading.result, namesMet, Except.map]
    | text given =>
      simp only [Reading.result, Reading.text.injEq, exists_eq', true_and]
      by_cases hgiven : isAttributeName given = true
      · rw [if_pos hgiven]
        refine List.mem_singleton.trans ⟨?_, fun h => h.1.symm⟩
        rintro rfl
        exact ⟨rfl, hgiven⟩
      · rw [if_neg hgiven]
        refine iff_of_false List.not_mem_nil ?_
        rintro ⟨rfl, hname⟩
        exact hgiven hname

/-- Later stages meet their names if none before them ends with an error. -/
theorem mem_namesMet_append_iff (e : Rose) (xs ys : List Stage) :
    name ∈ namesMet (xs ++ ys) ↔
      name ∈ namesMet xs ∨ (e.build xs).1 = .ok () ∧ name ∈ namesMet ys := by
  induction xs generalizing e with
  | nil => simp [namesMet, Rose.build]
  | cons stage xs ih =>
    cases stage with
    | error x => simp [namesMet, Rose.build]
    | ok steps =>
      rw [List.cons_append, namesMet, namesMet, List.mem_append, List.mem_append, ih, or_assoc]
      rfl

/-- Later tasks meet their names if the demands of all before them are met. -/
theorem mem_namesMet_tasks_append_iff (tasks more : List Task) :
    name ∈ namesMet ((tasks ++ more).flatMap (Task.stages r)) ↔
      name ∈ namesMet (tasks.flatMap (Task.stages r)) ∨
        (∀ p ∈ tasks.filterMap Task.demand?, ¬ p.2.Unmet r p.1) ∧
          name ∈ namesMet (more.flatMap (Task.stages r)) := by
  have hdone : (performAll r (.text "") tasks).1 = .ok () ↔
      ∀ p ∈ tasks.filterMap Task.demand?, ¬ p.2.Unmet r p.1 := by
    have hok : (performAll r (.text "") tasks).1 = .ok () ↔
        ¬ ∃ x, (performAll r (.text "") tasks).1 = .error x := by
      cases (performAll r (.text "") tasks).1 <;> simp
    rw [hok, exists_performAll_iff]
    simp only [not_exists, not_and]
  rw [List.flatMap_append, mem_namesMet_append_iff (.text ""), build_flatMap_stages, hdone]

/-! ## Names of records -/

/-- An input that binds its action to an attribute of some name: all that is read before can be
read, the action is a string, and the name can stand as one. -/
structure Record.Binds (r : Record) (name : String) : Prop where
  type_eq : r.get? "type" = some (.string "input")
  met : ∀ field ∈ ["id", "input_type", "placeholder"], ¬ Demand.optional.Unmet r field
  action : ∃ s, r.get? "action" = some (.string s)
  given : ∃ value, r.get? "action_type" = some value ∧ value.text? = some name
  valid : isAttributeName name = true

theorem Record.kind?_eq_input_iff :
    r.kind? = some .input ↔ r.get? "type" = some (.string "input") := by
  rw [Record.kind?_eq_some_iff]
  constructor
  · rintro ⟨name, htype, hkind⟩
    unfold ElementKind.ofTypeName? at hkind
    split at hkind <;> cases hkind
    exact htype
  · exact fun htype => ⟨"input", htype, rfl⟩

theorem Record.Binds.kind?_eq (h : r.Binds name) : r.kind? = some .input :=
  Record.kind?_eq_input_iff.2 h.type_eq

theorem mem_namesMet_stages_iff (settings : Settings) (kind : ElementKind) :
    name ∈ namesMet (r.stages settings kind) ↔
      name ∈ namesMet ((kind.tasks settings).flatMap (Task.stages r)) := by
  obtain ⟨last, hlast, heq⟩ := r.flatMap_stages_eq settings kind
  rw [heq, mem_namesMet_append_iff (.text "")]
  obtain rfl | rfl := hlast <;> simp [namesMet]

theorem ElementKind.known_tasks (settings : Settings) {kind : ElementKind} (hkind : kind ≠ .input) :
    ∀ task ∈ kind.tasks settings, task.Known := by
  cases kind with
  | input => exact absurd rfl hkind
  | text | button | link | select | image | div =>
    simp only [tasks, List.forall_mem_cons, Task.Known, List.not_mem_nil, false_implies,
      implies_true]
    decide

/-- The name that an input's record gives is met last, once all demands before are met. -/
theorem mem_namesMet_input_iff (settings : Settings) (hkind : r.kind? = some .input)
    (hnew : name ∉ NameTable.vocabulary) :
    name ∈ namesMet (r.stages settings .input) ↔ r.Binds name := by
  have hknown : ∀ task ∈ [Task.id, .optional "input_type" "type",
      .optional "placeholder" "placeholder", .action "onchange"], task.Known := by
    simp only [List.forall_mem_cons, Task.Known, List.not_mem_nil, false_implies, implies_true]
    decide
  have htasks : ElementKind.input.tasks settings = [.id, .optional "input_type" "type",
      .optional "placeholder" "placeholder", .action "onchange"] ++ [.slot] := rfl
  rw [mem_namesMet_stages_iff, htasks, mem_namesMet_tasks_append_iff, List.flatMap_singleton,
    mem_namesMet_slot_iff, or_iff_right fun hmem => hnew (mem_vocabulary_of_tasks hknown hmem)]
  have hdemands : [Task.id, .optional "input_type" "type", .optional "placeholder" "placeholder",
      .action "onchange"].filterMap Task.demand? = [("id", .optional), ("input_type", .optional),
        ("placeholder", .optional), ("action", .action)] := rfl
  simp only [hdemands, Record.readAction_eq_text_iff, Record.readText_eq_text_iff]
  constructor
  · rintro ⟨hmet, haction, hgiven, hvalid⟩
    refine ⟨Record.kind?_eq_input_iff.1 hkind, fun field hfield => ?_, haction, hgiven, hvalid⟩
    exact hmet (field, .optional) (by simpa using hfield)
  · rintro ⟨-, hmet, haction, hgiven, hvalid⟩
    refine ⟨?_, haction, hgiven, hvalid⟩
    simp only [List.forall_mem_cons] at hmet ⊢
    exact ⟨hmet.1, hmet.2.1, hmet.2.2.1, fun hunmet => hunmet.2 haction, by simp⟩

/-- What a record of some kind meets outside the vocabulary is the name that it binds its action
to. -/
theorem mem_names_ofRecord_iff (settings : Settings) {kind : ElementKind}
    (hkind : r.kind? = some kind) (hnew : name ∉ NameTable.vocabulary) :
    name ∈ (Part.ofRecord settings kind r).names ↔ r.Binds name := by
  have htag : kind.tag ∈ NameTable.vocabulary := by cases kind <;> decide
  show name ∈ kind.tag :: namesMet (r.stages settings kind) ↔ _
  rw [List.mem_cons, or_iff_right (ne_of_mem_of_not_mem htag hnew).symm]
  by_cases hinput : kind = .input
  · subst hinput
    exact mem_namesMet_input_iff settings hkind hnew
  · refine iff_of_false (fun hmem => hnew ?_) fun hbinds => hinput ?_
    · rw [mem_namesMet_stages_iff] at hmem
      exact mem_vocabulary_of_tasks (ElementKind.known_tasks settings hinput) hmem
    · exact Option.some.inj (hkind.symm.trans hbinds.kind?_eq)

/-! ## Names of descriptors -/

theorem mem_vocabulary_of_directive {s : String} (h : name ∈ (Part.ofDirective s).names) :
    name ∈ NameTable.vocabulary := by
  have hfixed : ∀ tag ∈ ["br", "hr", "style", "p"], tag ∈ NameTable.vocabulary := by decide
  rw [Part.ofDirective] at h
  split at h
  · rename_i hs
    rw [List.mem_singleton.1 h]
    exact hfixed s (by rcases hs with rfl | rfl <;> simp)
  · split at h
    · rw [List.mem_singleton.1 h]
      exact hfixed "style" (by simp)
    · rw [List.mem_singleton.1 h]
      exact hfixed "p" (by simp)

/-- **The names that a descriptor meets** outside the vocabulary are those that an input binds its
action to. -/
theorem Descriptor.mem_names_iff (settings : Settings) (hnew : name ∉ NameTable.vocabulary)
    (x : Descriptor) : name ∈ x.names settings ↔ ∃ r, x = .element r ∧ r.Binds name := by
  cases x with
  | directive s =>
    refine iff_of_false (fun h => hnew (mem_vocabulary_of_directive h)) ?_
    rintro ⟨r, hr, -⟩
    cases hr
  | invalid value =>
    refine iff_of_false List.not_mem_nil ?_
    rintro ⟨r, hr, -⟩
    cases hr
  | element r =>
    simp only [element.injEq, exists_eq_left']
    rw [names, part?]
    cases hkind : r.kind? with
    | none =>
      exact iff_of_false List.not_mem_nil fun hbinds => by cases hkind.symm.trans hbinds.kind?_eq
    | some kind => exact mem_names_ofRecord_iff settings hkind hnew

/-! ## Names of pages -/

variable {xs : List Descriptor}

theorem mem_names_compile_iff (settings : Settings) (xs : List Descriptor) (name : String) :
    name ∈ (compile settings xs).1.document.tree.names.names ↔
      name ∈ NameTable.initial.names ∨ ∃ r, .element r ∈ xs ∧ r.Binds name := by
  show name ∈ (Draft.after settings xs).document.tree.names.names ↔ _
  rw [Draft.names_after, NameTable.mem_names_after, List.mem_flatMap, NameTable.mem_names_initial]
  by_cases hknown : name ∈ NameTable.vocabulary
  · exact iff_of_true (.inl hknown) (.inl hknown)
  · simp only [Descriptor.mem_names_iff settings hknown]
    refine or_congr_right ⟨?_, ?_⟩
    · rintro ⟨x, hx, r, rfl, hbinds⟩
      exact ⟨r, hx, hbinds⟩
    · rintro ⟨r, hr, hbinds⟩
      exact ⟨_, hr, r, rfl, hbinds⟩

/-- Saving a page hands back the page that was built. -/
theorem eq_of_compileTo {files : FileMap} {path : String} {page : Page}
    (h : ((compileTo settings xs path : StateM FileMap _).run files).1.1 = .ok page) :
    page = (compile settings xs).1 := by
  obtain ⟨written, hwritten⟩ : ∃ written : Except WriteError Unit,
      (written.map fun _ => (compile settings xs).1) = .ok page := ⟨_, h⟩
  cases written with
  | error e => cases hwritten
  | ok => exact (Except.ok.inj hwritten).symm

/-- **The names of a page** are those of a new tree and those that its inputs bind their actions
to. There are as many as that makes, and rendering and saving the page adds none. -/
theorem compile_names (settings : Settings) (xs : List Descriptor) :
    let names := (compile settings xs).1.document.tree.names
    (∀ name, name ∈ names.names ↔
      name ∈ NameTable.initial.names ∨ ∃ r, .element r ∈ xs ∧ r.Binds name) ∧
    (∃ fresh : Finset String,
      (∀ name, name ∈ fresh ↔
        name ∉ NameTable.initial.names ∧ ∃ r, .element r ∈ xs ∧ r.Binds name) ∧
      names.size = NameTable.initial.size + fresh.card) ∧
    ∀ files path page,
      ((compileTo settings xs path : StateM FileMap _).run files).1.1 = .ok page →
        page.document.tree.names = names := by
  intro names
  have hnames := mem_names_compile_iff settings xs
  obtain ⟨fresh, hfresh⟩ : ∃ fresh : Finset String, ∀ name, name ∈ fresh ↔
      name ∉ NameTable.initial.names ∧ ∃ r, .element r ∈ xs ∧ r.Binds name := by
    refine ⟨names.names.toList.toFinset.filter (· ∉ NameTable.initial.names), fun name => ?_⟩
    rw [Finset.mem_filter, List.mem_toFinset, ← Array.mem_def, hnames, and_comm]
    exact and_congr_right fun hnew => or_iff_right hnew
  refine ⟨hnames, ⟨fresh, hfresh, ?_⟩, fun files path page h => by rw [eq_of_compileTo h]⟩
  refine NameTable.size_eq_add_card (fun name => ?_) fun name hname => ((hfresh name).1 hname).1
  rw [hnames, hfresh]
  exact or_congr_right' fun hnew => (and_iff_right hnew).symm

/-- Two inputs, the second with an id that cannot be read. -/
def sampleInputs : List Descriptor :=
  [.element ⟨[("type", .string "input"), ("action", .string "f()"),
      ("action_type", .string "onkeyup")]⟩,
    .element ⟨[("type", .string "input"), ("id", .array []), ("action", .string "g()"),
      ("action_type", .string "data-g")]⟩]

/-- The name that the second input would bind its action to is never met. -/
theorem compile_names_sampleInputs :
    let names := (compile {} sampleInputs).1.document.tree.names
    "onkeyup" ∈ names.names ∧ "data-g" ∉ names.names ∧
      names.size = NameTable.initial.size + 1 ∧
      ∃ page, ((compileTo {} sampleInputs "page.html" : StateM FileMap _).run
        { contents := fun _ => none }).1.1 = .ok page ∧ page.document.tree.names = names := by
  intro names
  obtain ⟨hnames, ⟨fresh, hfresh, hsize⟩, hsaved⟩ := compile_names {} sampleInputs
  have hnew : ∀ name ∈ ["onkeyup", "data-g"], name ∉ NameTable.initial.names := by decide +kernel
  have hbinds : ∀ name, (∃ r, .element r ∈ sampleInputs ∧ r.Binds name) ↔ name = "onkeyup" := by
    refine fun name => ⟨?_, ?_⟩
    · rintro ⟨r, hr, hr'⟩
      simp only [sampleInputs, List.mem_cons, Descriptor.element.injEq, List.not_mem_nil,
        or_false] at hr
      obtain rfl | rfl := hr
      · obtain ⟨value, hvalue, hname⟩ := hr'.given
        cases hvalue
        exact (Option.some.inj hname).symm
      · exact absurd ⟨_, rfl, trivial⟩ (hr'.met "id" (by simp))
    · rintro rfl
      refine ⟨_, List.mem_cons_self, rfl, ?_, ⟨_, rfl⟩, ⟨_, rfl, rfl⟩, by decide +kernel⟩
      simp only [List.forall_mem_cons]
      refine ⟨?_, ?_, ?_, by simp⟩ <;> rintro ⟨value, hvalue, -⟩ <;> cases hvalue
  have hcard : fresh = {"onkeyup"} := by
    ext name
    rw [hfresh, hbinds, Finset.mem_singleton, and_iff_right_iff_imp]
    rintro rfl
    exact hnew _ (by simp)
  have hdone : ((compileTo {} sampleInputs "page.html" : StateM FileMap _).run
      { contents := fun _ => none }).1.1 = .ok (compile {} sampleInputs).1 := rfl
  refine ⟨(hnames _).2 (.inr ((hbinds _).2 rfl)), fun hmem => ?_, ?_, _, hdone,
    hsaved _ _ _ hdone⟩
  · rcases (hnames _).1 hmem with hold | hbound
    · exact hnew "data-g" (by simp) hold
    · exact absurd ((hbinds _).1 hbound) (by decide)
  · rw [hsize, hcard, Finset.card_singleton]

end PageBuilder
