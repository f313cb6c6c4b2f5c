import PageBuilder.Proofs.Page.Composition
import PageBuilder.Proofs.Page.Records

/-!
# Trees accept what pages ask of them

A field that is bad is the only thing that can go wrong with a record of some kind: its error is
about a place that is read for that kind (`reads_of_mem_problems`), and never says that the tree
refused a change. Nor does a page lose a node. Even where a record is left half done, its element
hangs in the page with all that was made of it, so one path leads to each node from the root.
-/

namespace PageBuilder

open Dom

/-- The place in a record that an error is about, unless the tree refused a change. -/
def FieldError.place? : FieldError → Option String
  | missing field | wrongType field _ _ => some field
  | invalidAttributeName _ => some "action_type"
  | tree _ => none

/-- The places in a record that a task reads. -/
def Task.Reads : Task → String → Prop
  | id, place => place = "id"
  | text field, place | required field _, place | optional field _, place => place = field
  | fixed .., _ | select, _ => False
  | options, place => place = "options" ∨ ∃ i : ℕ, place = "options[" ++ toString i ++ "]"
  | action _, place => place = "action"
  | slot, place => place = "action" ∨ place = "action_type"

section

variable {r : Record} {e : Rose} {x : FieldError}

theorem Record.place?_readText {field : String} (h : r.readText field = .bad x) :
    x.place? = some field := by
  rw [readText] at h
  split at h
  · cases h
  · cases h
  · split at h
    · cases h
    · cases h
      rfl

theorem Record.place?_readAction (h : r.readAction = .bad x) : x.place? = some "action" := by
  rw [readAction] at h
  split at h
  · cases h
  · cases h
  · cases h
  · cases h
    rfl

/-- A reading that is used gives the error for an absent field, or its own. -/
theorem Reading.error_of_use {reading : Reading} {absent : Except FieldError Unit}
    {f : String → Rose} (h : (reading.use e absent f).1 = .error x) :
    (reading = .absent ∧ absent = .error x) ∨ reading = .bad x := by
  cases reading with
  | absent => exact .inl ⟨rfl, h⟩
  | text s => cases h
  | bad y =>
    cases h
    exact .inr rfl

theorem place?_addOptions {i : ℕ} {entries : List Json}
    (h : (addOptions e i entries).1 = .error x) :
    ∃ j : ℕ, x.place? = some ("options[" ++ toString j ++ "]") := by
  induction entries generalizing e i with
  | nil => cases h
  | cons entry entries ih =>
    rw [addOptions] at h
    split at h
    · exact ih h
    · cases h
      exact ⟨i, rfl⟩

/-- The error that a task ends with is about a place that the task reads. -/
theorem Task.place?_perform {task : Task} (h : (task.perform r e).1 = .error x) :
    ∃ place, x.place? = some place ∧ task.Reads place := by
  cases task with
  | id =>
    rcases Reading.error_of_use h with ⟨-, habsent⟩ | hbad
    · cases habsent
    · exact ⟨_, Record.place?_readText hbad, rfl⟩
  | text field | required field =>
    rcases Reading.error_of_use h with ⟨-, habsent⟩ | hbad
    · cases habsent
      exact ⟨field, rfl, rfl⟩
    · exact ⟨_, Record.place?_readText hbad, rfl⟩
  | optional field name =>
    rcases Reading.error_of_use h with ⟨-, habsent⟩ | hbad
    · cases habsent
    · exact ⟨_, Record.place?_readText hbad, rfl⟩
  | fixed | select => cases h
  | options =>
    rw [perform] at h
    split at h
    · cases h
      exact ⟨_, rfl, .inl rfl⟩
    · cases h
      exact ⟨_, rfl, .inl rfl⟩
    · obtain ⟨j, hj⟩ := place?_addOptions h
      exact ⟨_, hj, .inr ⟨j, rfl⟩⟩
    · cases h
      exact ⟨_, rfl, .inl rfl⟩
  | action event =>
    rcases Reading.error_of_use h with ⟨-, habsent⟩ | hbad
    · cases habsent
    · exact ⟨_, Record.place?_readAction hbad, rfl⟩
  | slot =>
    rw [perform] at h
    split at h
    · split at h
      · cases h
      · cases h
        exact ⟨_, rfl, .inr rfl⟩
    · rename_i hbad
      cases h
      exact ⟨_, Record.place?_readText hbad, .inr rfl⟩
    · cases h

/-- **The error that tasks end with is about a place that one of them reads.** -/
theorem place?_performAll {tasks : List Task} (h : (performAll r e tasks).1 = .error x) :
    ∃ place, x.place? = some place ∧ ∃ task ∈ tasks, task.Reads place := by
  induction tasks generalizing e with
  | nil => cases h
  | cons task tasks ih =>
    rw [performAll] at h
    split at h
    · obtain ⟨place, hplace, later, hlater, hreads⟩ := ih h
      exact ⟨place, hplace, later, List.mem_cons_of_mem _ hlater, hreads⟩
    · rename_i hperform
      cases h
      obtain ⟨place, hplace, hreads⟩ := Task.place?_perform (congrArg Prod.fst hperform)
      exact ⟨place, hplace, task, List.mem_cons_self, hreads⟩

end

/-! ## Diagnostics -/

variable {settings : Settings} {xs : List Descriptor}

theorem Part.problems_ofDirective (s : String) : (Part.ofDirective s).problems = [] := by
  rw [Part.ofDirective]
  split
  · rfl
  · split <;> rfl

/-- The problem of a part is the error that its stages end with. -/
theorem Part.mem_problems_iff {part : Part} {problem : Problem} :
    problem ∈ part.problems ↔ ∃ x, problem = .field x ∧
      ((Rose.element part.tag [] none []).build part.stages).1 = .error x := by
  rw [Part.problems]
  cases ((Rose.element part.tag [] none []).build part.stages).1 with
  | ok => simp
  | error e => simp

/-- The places in a descriptor that are read: those in a record that are read for its kind. -/
inductive Descriptor.Reads (settings : Settings) : Descriptor → String → Prop where
  | record {r : Record} {kind : ElementKind} {task : Task} {place : String}
      (hkind : r.kind? = some kind) (htask : task ∈ kind.tasks settings)
      (hplace : task.Reads place) : Reads settings (.element r) place

/-- **The error about a bad field is about a place that is read in the descriptor.** -/
theorem reads_of_mem_problems {x : Descriptor} {e : FieldError}
    (h : .field e ∈ x.problems settings) :
    ∃ place, e.place? = some place ∧ x.Reads settings place := by
  rw [Descriptor.problems, List.mem_append] at h
  cases x with
  | directive s =>
    rcases h with h | h
    · cases h
    · have hnone := Part.problems_ofDirective s
      simp [Descriptor.part?, hnone] at h
  | invalid value =>
    rcases h with h | h
    · simp [Descriptor.outerProblems] at h
    · cases h
  | element r =>
    rcases h with h | h
    · rw [Descriptor.outerProblems] at h
      split at h <;> simp at h
    · rw [Descriptor.part?] at h
      cases hkind : r.kind? with
      | none =>
        rw [hkind] at h
        cases h
      | some kind =>
        rw [hkind] at h
        obtain ⟨x, hx, hbuild⟩ := Part.mem_problems_iff.1 h
        cases hx
        have hperform := congrArg Prod.fst
          (build_record settings kind r (.element kind.tag [] none []))
        obtain ⟨place, hplace, task, htask, hreads⟩ :=
          place?_performAll (hperform.symm.trans hbuild)
        exact ⟨place, hplace, .record hkind htask hreads⟩

theorem exists_of_mem_diagnosticsFrom {index : ℕ} {d : Diagnostic}
    (h : d ∈ diagnosticsFrom settings index xs) : ∃ x ∈ xs, d.problem ∈ x.problems settings := by
  obtain ⟨i, x, hx, -, hproblem⟩ := mem_diagnosticsFrom_iff.1 h
  exact ⟨x, List.mem_of_getElem? hx, hproblem⟩

/-! ## Pages -/

/-- **Trees accept all that pages ask of them, and no node is lost**: no diagnostic says that the
tree refused a change, operations that are granted lead to the page, and exactly one path leads from
the root to each of its nodes. -/
theorem compile_accepted (settings : Settings) (xs : List Descriptor) :
    (∀ d ∈ (compile settings xs).1.diagnostics, ∀ e, d.problem ≠ .field (.tree e)) ∧
      Relation.ReflTransGen Tree.Grants (Draft.start settings).document.tree
        (compile settings xs).1.document.tree ∧
      ∀ n : NodeId, n.index < (compile settings xs).1.document.tree.size →
        ∃! path, (compile settings xs).1.document.tree.descend? .root path = some n := by
  refine ⟨fun d hd e => ?_, (Draft.whole_after settings xs).extends_start.granted, fun n hn => ?_⟩
  · rw [compile_diagnostics] at hd
    obtain ⟨x, -, hproblem⟩ := exists_of_mem_diagnosticsFrom hd
    intro hrefused
    rw [hrefused] at hproblem
    obtain ⟨place, hplace, -⟩ := reads_of_mem_problems hproblem
    cases hplace
  · have hlinked := (Draft.reachable_after settings xs).wellFormed.toWellLinked
    exact hlinked.existsUnique_descend? (Draft.attached_after settings xs) hn

end PageBuilder
