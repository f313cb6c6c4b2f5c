import PageBuilder.Proofs.Page.Acceptance

/-!
# What is reported

A page is built without its faulty descriptors, or with as much of them as can be built, so the
diagnostics are all that tells of a fault. `Descriptor.IsFaulty` says which descriptors are faulty,
by their kind and what it demands of the fields, and does not look at how elements are built.

`compile_reports` says that these and no others are reported, each once and in the order in which
they stand, and that the warnings in the log are the diagnostics again.
-/

namespace PageBuilder

open Dom Log

/-! ## Demands on fields -/

/-- A string, number or boolean. -/
def Json.IsScalar : Json → Prop
  | .string _ | .number _ | .bool _ => True
  | .null | .array _ | .object _ => False

/-- An array or object. -/
def Json.IsNested : Json → Prop
  | .array _ | .object _ => True
  | .null | .string _ | .number _ | .bool _ => False

/-- Whether a record has nothing in a field, or `null`. -/
def Record.Lacks (r : Record) (field : String) : Prop :=
  r.get? field = none ∨ r.get? field = some .null

/-- What a kind of element demands of a field. -/
inductive Demand where
  /-- A scalar, if it is there. -/
  | optional
  /-- A scalar that is there. -/
  | required
  /-- An array of scalars that is there. -/
  | options
  /-- A string, if it is there. -/
  | action
  /-- The name of an attribute, if it is there and the action is a string. -/
  | eventName
deriving DecidableEq, Repr

/-- Whether a field of a record is not what is demanded. -/
def Demand.Unmet (r : Record) (field : String) : Demand → Prop
  | optional => ∃ value, r.get? field = some value ∧ value.IsNested
  | required => r.Lacks field ∨ ∃ value, r.get? field = some value ∧ value.IsNested
  | options =>
    ¬ ∃ entries, r.get? field = some (.array entries) ∧ ∀ entry ∈ entries, entry.IsScalar
  | action => ¬ r.Lacks field ∧ ¬ ∃ s, r.get? field = some (.string s)
  | eventName =>
    (∃ s, r.get? "action" = some (.string s)) ∧ ∃ value, r.get? field = some value ∧
      (value.IsNested ∨ ∃ name, value.text? = some name ∧ isAttributeName name = false)

/-- The fields that are read for a kind of element, and what is demanded of them. -/
def ElementKind.demands : ElementKind → List (String × Demand)
  | text | button => [("id", .optional), ("text", .required), ("action", .action)]
  | link => [("id", .optional), ("text", .required), ("href", .required)]
  | select => [("id", .optional), ("options", .options), ("action", .action)]
  | image =>
    [("id", .optional), ("src", .required), ("alt", .optional), ("width", .optional),
      ("height", .optional), ("action", .action)]
  | input =>
    [("id", .optional), ("input_type", .optional), ("placeholder", .optional),
      ("action", .action), ("action_type", .eventName)]
  | div => [("id", .optional), ("action", .action)]

/-- A record is faulty without a type, and if it is of some kind and does not meet a demand of that
kind. -/
def Record.IsFaulty (r : Record) : Prop :=
  (¬ ∃ name, r.get? "type" = some (.string name) ∧ name ≠ "") ∨
    ∃ name kind, r.get? "type" = some (.string name) ∧ ElementKind.ofTypeName? name = some kind ∧
      ∃ p ∈ kind.demands, p.2.Unmet r p.1

/-- Directives are never faulty, and what is neither a directive nor a record always is. -/
def Descriptor.IsFaulty : Descriptor → Prop
  | directive _ => False
  | element r => r.IsFaulty
  | invalid _ => True

/-! ## Demands and readings -/

theorem Json.isScalar_iff {value : Json} : value.IsScalar ↔ ∃ s, value.text? = some s := by
  cases value with
  | bool b => cases b <;> simp [IsScalar, text?]
  | null | number | string | array | object => simp [IsScalar, text?]

namespace Record

variable {r : Record} {field : String}

/-- A field is read badly if it holds an array or an object. -/
theorem exists_readText_eq_bad_iff :
    (∃ x, r.readText field = .bad x) ↔ ∃ value, r.get? field = some value ∧ value.IsNested := by
  rw [readText]
  cases r.get? field with
  | none => simp
  | some value =>
    cases value with
    | bool b => cases b <;> simp [Json.text?, Json.IsNested]
    | null | number | string | array | object => simp [Json.text?, Json.IsNested]

theorem readText_eq_absent_iff : r.readText field = .absent ↔ r.Lacks field := by
  rw [readText, Lacks]
  cases r.get? field with
  | none => simp
  | some value =>
    cases value with
    | bool b => cases b <;> simp [Json.text?]
    | null | number | string | array | object => simp [Json.text?]

theorem readText_eq_text_iff {s : String} :
    r.readText field = .text s ↔ ∃ value, r.get? field = some value ∧ value.text? = some s := by
  rw [readText]
  cases r.get? field with
  | none => simp
  | some value =>
    cases value with
    | bool b => cases b <;> simp [Json.text?]
    | null | number | string | array | object => simp [Json.text?]

theorem exists_readAction_eq_bad_iff :
    (∃ x, r.readAction = .bad x) ↔ Demand.action.Unmet r "action" := by
  rw [readAction, Demand.Unmet, Lacks]
  cases r.get? "action" with
  | none => simp
  | some value => cases value <;> simp

theorem readAction_eq_text_iff {s : String} :
    r.readAction = .text s ↔ r.get? "action" = some (.string s) := by
  rw [readAction]
  cases r.get? "action" with
  | none => simp
  | some value => cases value <;> simp

end Record

/-- What a task demands, and of which field. -/
def Task.demand? : Task → Option (String × Demand)
  | id => some ("id", .optional)
  | text field | required field _ => some (field, .required)
  | optional field _ => some (field, .optional)
  | fixed _ _ | select => none
  | options => some ("options", .options)
  | action _ => some ("action", .action)
  | slot => some ("action_type", .eventName)

theorem ElementKind.demands_eq (settings : Settings) (kind : ElementKind) :
    kind.demands = (kind.tasks settings).filterMap Task.demand? := by
  cases kind <;> rfl

section

variable {r : Record} {e : Rose}

/-- Where a field may be absent, a reading fails if it is bad. -/
theorem Reading.exists_use_optional_iff {reading : Reading} {f : String → Rose} :
    (∃ x, (reading.use e (.ok ()) f).1 = .error x) ↔ ∃ x, reading = .bad x := by
  cases reading <;> simp [use]

/-- Where a field has to be there, a reading fails if it is absent or bad. -/
theorem Reading.exists_use_required_iff {reading : Reading} {f : String → Rose} {x : FieldError} :
    (∃ y, (reading.use e (.error x) f).1 = .error y) ↔
      reading = .absent ∨ ∃ y, reading = .bad y := by
  cases reading <;> simp [use]

theorem exists_addOptions_iff {i : ℕ} {entries : List Json} :
    (∃ x, (addOptions e i entries).1 = .error x) ↔ ¬ ∀ entry ∈ entries, entry.IsScalar := by
  induction entries generalizing e i with
  | nil => simp [addOptions]
  | cons entry entries ih =>
    rw [List.forall_mem_cons, addOptions, Json.isScalar_iff]
    cases entry.text? with
    | none => simp
    | some label => simpa using ih

/-- The name of an event is in error if it is bad or no name, and there is an action. -/
theorem Demand.unmet_eventName_iff {field : String} :
    eventName.Unmet r field ↔ (∃ s, r.readAction = .text s) ∧
      ((∃ x, r.readText field = .bad x) ∨
        ∃ name, r.readText field = .text name ∧ isAttributeName name = false) := by
  simp only [Unmet, Record.readAction_eq_text_iff, Record.exists_readText_eq_bad_iff,
    Record.readText_eq_text_iff]
  refine and_congr_right fun _ => ⟨?_, ?_⟩
  · rintro ⟨value, hvalue, hnested | ⟨name, htext, hname⟩⟩
    · exact .inl ⟨value, hvalue, hnested⟩
    · exact .inr ⟨name, ⟨value, hvalue, htext⟩, hname⟩
  · rintro (⟨value, hvalue, hnested⟩ | ⟨name, ⟨value, hvalue, htext⟩, hname⟩)
    · exact ⟨value, hvalue, .inl hnested⟩
    · exact ⟨value, hvalue, .inr ⟨name, htext, hname⟩⟩

/-- **A task fails if its demand is not met**, whatever was built before. -/
theorem Task.exists_perform_iff {task : Task} :
    (∃ x, (task.perform r e).1 = .error x) ↔ ∃ p ∈ task.demand?, p.2.Unmet r p.1 := by
  cases task with
  | id | optional field =>
    simp only [perform, Reading.exists_use_optional_iff, Record.exists_readText_eq_bad_iff]
    simp [demand?, Demand.Unmet]
  | text field | required field =>
    simp only [perform, Reading.exists_use_required_iff, Record.readText_eq_absent_iff,
      Record.exists_readText_eq_bad_iff]
    simp [demand?, Demand.Unmet]
  | fixed | select => simp [perform, demand?]
  | options =>
    simp only [perform, demand?, Option.mem_some_iff, exists_eq_left', Demand.Unmet]
    cases r.get? "options" with
    | none => simp
    | some value =>
      cases value with
      | array entries => simp [exists_addOptions_iff]
      | null | bool | number | string | object => simp
  | action event =>
    simp only [perform, Reading.exists_use_optional_iff, Record.exists_readAction_eq_bad_iff]
    simp [demand?]
  | slot =>
    simp only [demand?, Option.mem_some_iff, exists_eq_left', Demand.unmet_eventName_iff, perform]
    cases r.readAction with
    | absent | bad => simp
    | text s =>
      cases r.readText "action_type" with
      | absent | bad => simp
      | text name => cases hname : isAttributeName name <;> simp [hname]

/-- **Tasks fail if one of their demands is not met.** -/
theorem exists_performAll_iff {tasks : List Task} :
    (∃ x, (performAll r e tasks).1 = .error x) ↔
      ∃ p ∈ tasks.filterMap Task.demand?, p.2.Unmet r p.1 := by
  induction tasks generalizing e with
  | nil => simp [performAll]
  | cons task tasks ih =>
    have htask := task.exists_perform_iff (r := r) (e := e)
    have hsplit : (∃ p ∈ (task :: tasks).filterMap Task.demand?, p.2.Unmet r p.1) ↔
        (∃ p ∈ task.demand?, p.2.Unmet r p.1) ∨
          ∃ p ∈ tasks.filterMap Task.demand?, p.2.Unmet r p.1 := by
      simp [or_and_right, exists_or]
    rw [hsplit, ← htask, performAll]
    split
    · rename_i hperform
      simp [hperform, ih]
    · rename_i hperform
      simp [hperform]

end

/-! ## Problems of a descriptor -/

section

variable {settings : Settings} {xs : List Descriptor}

theorem Record.hasType_iff {r : Record} :
    r.hasType = true ↔ ∃ name, r.get? "type" = some (.string name) ∧ name ≠ "" := by
  rw [hasType, typeName?]
  cases r.get? "type" with
  | none => simp
  | some value => cases value <;> simp

/-- A record is faulty without a type, and with one if a demand of its kind is not met. -/
theorem Record.isFaulty_iff {r : Record} :
    r.IsFaulty ↔ ¬ r.hasType = true ∨
      ∃ kind, r.kind? = some kind ∧ ∃ p ∈ kind.demands, p.2.Unmet r p.1 := by
  simp only [IsFaulty, hasType_iff, kind?_eq_some_iff]
  refine or_congr_right ⟨?_, ?_⟩
  · rintro ⟨name, kind, hname, hkind, hunmet⟩
    exact ⟨kind, ⟨name, hname, hkind⟩, hunmet⟩
  · rintro ⟨kind, ⟨name, hname, hkind⟩, hunmet⟩
    exact ⟨name, kind, hname, hkind, hunmet⟩

/-- The part of a record has a problem if a demand of its kind is not met. -/
theorem Part.problems_ofRecord_ne_nil_iff {kind : ElementKind} {r : Record} :
    (Part.ofRecord settings kind r).problems ≠ [] ↔ ∃ p ∈ kind.demands, p.2.Unmet r p.1 := by
  rw [ElementKind.demands_eq settings,
    ← exists_performAll_iff (e := .element kind.tag [] none []), ← build_record]
  constructor
  · intro hne
    obtain ⟨problem, hproblem⟩ := List.exists_mem_of_ne_nil _ hne
    obtain ⟨x, -, hx⟩ := Part.mem_problems_iff.1 hproblem
    exact ⟨x, hx⟩
  · rintro ⟨x, hx⟩
    exact List.ne_nil_of_mem (Part.mem_problems_iff.2 ⟨x, rfl, hx⟩)

theorem Part.length_problems_le (part : Part) : part.problems.length ≤ 1 := by
  rw [problems]
  split
  · exact Nat.zero_le 1
  · exact Nat.le_refl 1

/-- A record without a type has no kind, so it has no other problem. -/
theorem Descriptor.length_problems_le (settings : Settings) (x : Descriptor) :
    (x.problems settings).length ≤ 1 := by
  cases x with
  | directive s => exact Part.length_problems_le _
  | invalid value => exact Nat.le_refl 1
  | element r =>
    rw [problems, part?, outerProblems]
    cases hkind : r.kind? with
    | none => split <;> simp
    | some kind =>
      rw [if_pos (Draft.hasType_of_kind? hkind)]
      exact Part.length_problems_le _

/-- **A descriptor has a problem if it is faulty.** -/
theorem Descriptor.problems_ne_nil_iff (settings : Settings) (x : Descriptor) :
    x.problems settings ≠ [] ↔ x.IsFaulty := by
  cases x with
  | directive s => simp [problems, outerProblems, part?, Part.problems_ofDirective, IsFaulty]
  | invalid value => simp [problems, outerProblems, IsFaulty]
  | element r =>
    show _ ↔ r.IsFaulty
    rw [Record.isFaulty_iff, problems, part?, outerProblems]
    cases hkind : r.kind? with
    | none => simp
    | some kind => simp [Draft.hasType_of_kind? hkind, Part.problems_ofRecord_ne_nil_iff]

/-! ## Diagnostics -/

theorem pairwise_diagnosticsFrom (index : ℕ) :
    (diagnosticsFrom settings index xs).Pairwise fun d d' => d.index < d'.index := by
  induction xs generalizing index with
  | nil => exact .nil
  | cons x xs ih =>
    refine List.pairwise_append.2 ⟨?_, ih (index + 1), ?_⟩
    · -- one descriptor has one problem at most
      have hlength := x.length_problems_le settings
      cases hproblems : x.problems settings with
      | nil => exact .nil
      | cons problem rest =>
        rw [hproblems, List.length_cons] at hlength
        rw [List.eq_nil_of_length_eq_zero (by omega : rest.length = 0)]
        exact List.pairwise_singleton ..
    · intro d hd d' hd'
      obtain ⟨problem, -, rfl⟩ := List.mem_map.1 hd
      obtain ⟨i, -, -, hindex, -⟩ := mem_diagnosticsFrom_iff.1 hd'
      show index < d'.index
      omega

end

/-! ## The log -/

/-- What is logged for a draft are its diagnostics, besides events of which nobody is warned. -/
structure Draft.Mirrored (d : Draft) : Prop where
  warnings : d.log.toList.filter (·.level = .warn) = d.diagnostics.toList.map .diagnosed
  level_ne_error : ∀ e ∈ d.log.toList, e.level ≠ .error

namespace Draft

variable {d : Draft}

theorem Mirrored.start (settings : Settings) : (start settings).Mirrored :=
  ⟨rfl, fun _ he => by cases he⟩

theorem forall_mem_log_note {P : Event → Prop} (h : ∀ e ∈ d.log.toList, P e) {event : Event}
    (hevent : P event) : ∀ e ∈ (d.note event).log.toList, P e := by
  intro e he
  rw [note, Array.toList_push, List.mem_append, List.mem_singleton] at he
  rcases he with he | rfl
  · exact h e he
  · exact hevent

/-- Nobody is warned of a type that names no element. -/
theorem Mirrored.noElement (h : d.Mirrored) (index : ℕ) (type : Option Json) :
    (d.note (.noElement index type)).Mirrored where
  warnings := by simpa [note, Event.level] using h.warnings
  level_ne_error := forall_mem_log_note h.level_ne_error Level.noConfusion

theorem Mirrored.report (h : d.Mirrored) (index : ℕ) (problem : Problem) :
    (d.report index problem).Mirrored where
  warnings := by simpa [Draft.report, note, Event.level] using h.warnings
  level_ne_error := forall_mem_log_note h.level_ne_error Level.noConfusion

/-- Building changes the tree alone. -/
theorem Mirrored.build (h : d.Mirrored) (part : Part) : (d.build part).2.Mirrored :=
  ⟨h.warnings, h.level_ne_error⟩

theorem Mirrored.add (h : d.Mirrored) (index : ℕ) (part : Part) : (d.add index part).Mirrored := by
  have hbuild := h.build part
  rw [Draft.add]
  split
  · rename_i heq
    rwa [heq] at hbuild
  · rename_i e d' heq
    rw [heq] at hbuild
    exact hbuild.report index _

theorem Mirrored.visit (h : d.Mirrored) (settings : Settings) (index : ℕ) (x : Descriptor) :
    (d.visit settings index x).Mirrored := by
  cases x with
  | directive s => exact h.add index _
  | invalid value => exact h.report index _
  | element r =>
    have htype : (if r.hasType then d else d.report index .missingType).Mirrored := by
      split
      · exact h
      · exact h.report index _
    rw [Draft.visit]
    cases r.kind? with
    | none => exact htype.noElement index _
    | some kind => exact htype.add index _

theorem Mirrored.visitAll (h : d.Mirrored) (settings : Settings) (index : ℕ)
    (xs : List Descriptor) : (d.visitAll settings index xs).Mirrored := by
  induction xs generalizing d index with
  | nil => exact h
  | cons x xs ih => exact ih (h.visit settings index x) (index + 1)

end Draft

/-! ## Pages -/

/-- Of the values in a JSON array, all but strings and objects are faulty. -/
theorem Descriptor.isFaulty_ofJson_iff (value : Json) :
    (ofJson value).IsFaulty ↔ (∀ s, value ≠ .string s) ∧
      ∀ fields, value = .object fields → (Record.mk fields).IsFaulty := by
  cases value with
  | string s => simp [ofJson, IsFaulty]
  | object fields => simp [ofJson, IsFaulty]
  | array entries => simp [ofJson, IsFaulty, Record.IsFaulty, Record.get?, Json.field?]
  | null | bool | number => simp [ofJson, IsFaulty]

/-- The summary at the end of the log warns of nothing. -/
theorem log_compile (settings : Settings) (xs : List Descriptor) :
    (compile settings xs).2.filter (·.level = .warn) =
        (compile settings xs).1.diagnostics.map .diagnosed ∧
      ∀ e ∈ (compile settings xs).2, e.level ≠ .error := by
  have hmirrored := (Draft.Mirrored.start settings).visitAll settings 1 xs
  refine ⟨?_, fun e he => ?_⟩
  · rw [compile, List.filter_append, hmirrored.warnings]
    exact List.append_nil _
  · rcases List.mem_append.1 he with he | he
    · exact hmirrored.level_ne_error e he
    · obtain rfl := List.mem_singleton.1 he
      exact Level.noConfusion

/-- **Faulty descriptors are reported, and nothing else is**: each of them once, in the order in
which they stand. The warnings in the log say the same in the same order, and no event is an
error. -/
theorem compile_reports (settings : Settings) (xs : List Descriptor) :
    ((compile settings xs).1.diagnostics.Pairwise fun d d' => d.index < d'.index) ∧
      (∀ d ∈ (compile settings xs).1.diagnostics, 1 ≤ d.index ∧ d.index ≤ xs.length) ∧
      (∀ i : Fin xs.length,
        (∃ d ∈ (compile settings xs).1.diagnostics, d.index = i + 1) ↔ xs[i].IsFaulty) ∧
      (∀ value : Json, (Descriptor.ofJson value).IsFaulty ↔ (∀ s, value ≠ .string s) ∧
        ∀ fields, value = .object fields → (Record.mk fields).IsFaulty) ∧
      ((compile settings xs).2.filter (·.level = .warn)).map Event.message =
        (compile settings xs).1.diagnostics.map Diagnostic.text ∧
      ∀ e ∈ (compile settings xs).2, e.level ≠ .error := by
  obtain ⟨hwarnings, hlevels⟩ := log_compile settings xs
  refine ⟨?_, ?_, ?_, Descriptor.isFaulty_ofJson_iff, ?_, ?_⟩
  · rw [compile_diagnostics]
    exact pairwise_diagnosticsFrom 1
  · intro d hd
    rw [compile_diagnostics] at hd
    obtain ⟨i, x, hx, hindex, -⟩ := mem_diagnosticsFrom_iff.1 hd
    have hlt : i < xs.length := (List.getElem?_eq_some_iff.1 hx).1
    omega
  · intro i
    rw [compile_diagnostics, ← Descriptor.problems_ne_nil_iff settings]
    constructor
    · rintro ⟨d, hd, hindex⟩
      obtain ⟨j, x, hx, hindex', hproblem⟩ := mem_diagnosticsFrom_iff.1 hd
      obtain rfl : j = i := by omega
      obtain rfl : xs[i] = x := (List.getElem?_eq_some_iff.1 hx).2
      exact List.ne_nil_of_mem hproblem
    · intro hne
      obtain ⟨problem, hproblem⟩ := List.exists_mem_of_ne_nil _ hne
      exact ⟨⟨i + 1, problem⟩,
        mem_diagnosticsFrom_iff.2 ⟨i, xs[i], by simp, Nat.add_comm _ _, hproblem⟩, rfl⟩
  · rw [hwarnings, List.map_map]
    rfl
  · exact hlevels

example : (compile {} [.element {}, .directive "a", .element (.ofType "link")]).1.diagnostics =
    [⟨1, .missingType⟩, ⟨3, .field (.missing "text")⟩] := by decide +kernel

end PageBuilder
