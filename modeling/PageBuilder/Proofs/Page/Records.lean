import PageBuilder.Proofs.Dom.Ids
import PageBuilder.Proofs.Page.Growth

/-!
# What records ask for

A record is a list of tasks for one element, laid down by its kind (`ElementKind.tasks`). Each task
reads a field of the record and changes the element, or finds the field bad; the first bad field
ends the work, and the element stays as it is by then (`performAll`).

`visit_record` says that this is what visiting a record does to a page: one more element in the
container, built as far as the tasks come, at most one diagnostic, and nothing else.
-/

namespace PageBuilder

open Dom

/-! ## Reading fields -/

/-- What a record holds where a text is asked for. -/
inductive Reading where
  | absent
  | text (s : String)
  | bad (e : FieldError)

/-- The text of a value: a string, number or boolean. -/
def Json.text? : Json → Option String
  | .string s => some s
  | .number n => some n.text
  | .bool true => some "true"
  | .bool false => some "false"
  | _ => none

namespace Record

/-- Reads a field as a text. A field that is `null` is absent. -/
def readText (r : Record) (field : String) : Reading :=
  match r.get? field with
  | none | some .null => .absent
  | some value =>
    match value.text? with
    | some s => .text s
    | none => .bad (.wrongType field .scalar value.kind)

/-- Reads the action, which has to be a string. -/
def readAction (r : Record) : Reading :=
  match r.get? "action" with
  | none | some .null => .absent
  | some (.string s) => .text s
  | some value => .bad (.wrongType "action" .string value.kind)

end Record

/-! ## Tasks -/

/-- What is to be done to an element. -/
inductive Task where
  /-- The id, unless it is blank. -/
  | id
  /-- A text in the element, from a field that has to be there. -/
  | text (field : String)
  /-- An attribute from a field that has to be there. -/
  | required (field name : String)
  /-- An attribute from a field that may be absent. -/
  | optional (field name : String)
  /-- An attribute that depends on no field. -/
  | fixed (name value : String)
  /-- The first option starts selected. -/
  | select
  /-- An option for each entry of the options. -/
  | options
  /-- The action, if there is one, as an attribute. -/
  | action (event : String)
  /-- The action, if there is one, as an attribute whose name the record gives. -/
  | slot

/-- What is to be done to an element of some kind, in this order. -/
def ElementKind.tasks (settings : Settings) : ElementKind → List Task
  | text | button => [.id, .text "text", .action "onclick"]
  | link =>
    [.id, .text "text", .required "href" "href", .fixed "target" settings.linkTarget]
  | select => [.id, .select, .options, .action "onchange"]
  | image =>
    [.id, .required "src" "src", .optional "alt" "alt", .optional "width" "width",
      .optional "height" "height", .action "onclick"]
  | input =>
    [.id, .optional "input_type" "type", .optional "placeholder" "placeholder",
      .action "onchange", .slot]
  | div => [.id, .action "onclick"]

/-- Adds an option for each entry, the first of which has a given position, up to one that is no
text. -/
def addOptions (e : Rose) : ℕ → List Json → Except FieldError Unit × Rose
  | _, [] => (.ok (), e)
  | i, entry :: rest =>
    match entry.text? with
    | some label =>
      addOptions (e.append (.element "option" [] none [.text label])) (i + 1) rest
    | none => (.error (.wrongType ("options[" ++ toString i ++ "]") .scalar entry.kind), e)

/-- Makes something of an element if a text was read; otherwise it stays as it is. -/
def Reading.use (e : Rose) (absent : Except FieldError Unit) (f : String → Rose) :
    Reading → Except FieldError Unit × Rose
  | .absent => (absent, e)
  | .text s => (.ok (), f s)
  | .bad x => (.error x, e)

/-- Does a task for an element, as its record says. -/
def Task.perform (r : Record) (e : Rose) : Task → Except FieldError Unit × Rose
  | id =>
    (r.readText "id").use e (.ok ()) fun s =>
      if s.toList.all Text.isBlank then e else e.setAttribute "id" s
  | text field =>
    (r.readText field).use e (.error (.missing field)) fun s => e.append (.text s)
  | required field name =>
    (r.readText field).use e (.error (.missing field)) fun s => e.setAttribute name s
  | optional field name => (r.readText field).use e (.ok ()) fun s => e.setAttribute name s
  | fixed name value => (.ok (), e.setAttribute name value)
  | select => (.ok (), e.setSelectedIndex 0)
  | options =>
    match r.get? "options" with
    | none | some .null => (.error (.missing "options"), e)
    | some (.array entries) => addOptions e 0 entries
    | some value => (.error (.wrongType "options" .array value.kind), e)
  | action event => r.readAction.use e (.ok ()) fun s => e.setAttribute event s
  | slot =>
    match r.readAction, r.readText "action_type" with
    | .text s, .text name =>
      if isAttributeName name then (.ok (), e.setAttribute name s)
      else (.error (.invalidAttributeName name), e)
    | .text _, .bad x => (.error x, e)
    | _, _ => (.ok (), e)

/-- Does tasks one after another, up to the first whose field is bad. -/
def performAll (r : Record) (e : Rose) : List Task → Except FieldError Unit × Rose
  | [] => (.ok (), e)
  | task :: rest =>
    match task.perform r e with
    | (.ok (), e) => performAll r e rest
    | (.error x, e) => (.error x, e)

/-! ## Fields as they are read -/

theorem scalarText_eq (field : String) (value : Json) :
    scalarText field value =
      value.text?.elim (.error (.wrongType field .scalar value.kind)) .ok := by
  cases value with
  | bool b => cases b <;> rfl
  | null | number | string | array | object => rfl

/-- What an accessor gives for a reading. -/
def Reading.result : Reading → Except FieldError (Option String)
  | .absent => .ok none
  | .text s => .ok (some s)
  | .bad x => .error x

namespace Record

variable (r : Record) (field : String)

theorem scalar_eq : r.scalar field = (r.readText field).result := by
  rw [scalar, given?, readText]
  cases r.get? field with
  | none => rfl
  | some value =>
    cases value with
    | null => rfl
    | bool b => cases b <;> rfl
    | number | string | array | object => rfl

theorem requiredScalar_eq :
    r.requiredScalar field = (r.readText field).result.bind fun s =>
      s.elim (.error (.missing field)) .ok := by
  rw [requiredScalar, given?, readText]
  cases r.get? field with
  | none => rfl
  | some value =>
    cases value with
    | null => rfl
    | bool b => cases b <;> rfl
    | number | string | array | object => rfl

theorem action_eq : r.action = r.readAction.result := by
  rw [action, given?, readAction]
  cases r.get? "action" with
  | none => rfl
  | some value => cases value <;> rfl

end Record

/-! ## Tasks as stages -/

/-- Stages go on where those before them ended, unless they ended with an error. -/
theorem Dom.Rose.build_append (e : Rose) (xs ys : List Stage) :
    e.build (xs ++ ys) =
      match e.build xs with
      | (.ok (), e) => e.build ys
      | (.error x, e) => (.error x, e) := by
  induction xs generalizing e with
  | nil => rfl
  | cons stage xs ih =>
    cases stage with
    | error x => rfl
    | ok steps => exact ih _

/-- A last stage without steps makes no difference. -/
theorem Dom.Rose.build_append_empty (e : Rose) (xs : List Stage) :
    e.build (xs ++ [.ok []]) = e.build xs := by
  rw [build_append]
  obtain ⟨result, e'⟩ := e.build xs
  cases result <;> rfl

/-- The stages of a task. -/
def Task.stages (r : Record) : Task → List Stage
  | id => [r.idStage]
  | text field => [r.textStage field]
  | required field name => [r.requiredStage field name]
  | optional field name => [r.optionalStage field name]
  | fixed name value => [.ok [.setAttribute name value]]
  | select => [.ok [.setSelectedIndex 0]]
  | options => r.optionStages
  | action event => [r.actionStage event]
  | slot =>
    match r.action with
    | .ok (some s) =>
      [r.actionType.map fun name => name.toList.map fun event => .setAttribute event s]
    | _ => []

theorem build_options (e : Rose) (i : ℕ) (entries : List Json) :
    e.build ((entries.zipIdx i).map fun (entry, i) =>
      (scalarText ("options[" ++ toString i ++ "]") entry).map fun label => [.addOption label]) =
      addOptions e i entries := by
  induction entries generalizing e i with
  | nil => rfl
  | cons entry entries ih =>
    rw [List.zipIdx_cons, List.map_cons]
    dsimp only
    rw [scalarText_eq, addOptions]
    cases entry.text? with
    | none => rfl
    | some label => exact ih _ (i + 1)

/-- The stages of a task do it. -/
theorem Task.build_stages (r : Record) (e : Rose) (task : Task) :
    e.build (task.stages r) = task.perform r e := by
  cases task with
  | id =>
    rw [stages, perform, Record.idStage, Record.id, Record.scalar_eq]
    cases r.readText "id" with
    | absent | bad => rfl
    | text s =>
      simp only [Reading.result, Except.map, Reading.use, Option.filter_some]
      split
      · rename_i hblank
        rw [if_neg (by simpa using hblank)]
        rfl
      · rename_i hblank
        rw [if_pos (by simpa using hblank)]
        rfl
  | text field =>
    rw [stages, perform, Record.textStage, Record.requiredScalar_eq]
    cases r.readText field <;> rfl
  | required field name =>
    rw [stages, perform, Record.requiredStage, Record.requiredScalar_eq]
    cases r.readText field <;> rfl
  | optional field name =>
    rw [stages, perform, Record.optionalStage, Record.scalar_eq]
    cases r.readText field <;> rfl
  | fixed name value => rfl
  | select => rfl
  | options =>
    rw [stages, perform, Record.optionStages, Record.array, Record.given?]
    cases r.get? "options" with
    | none => rfl
    | some value =>
      cases value with
      | array entries => exact build_options e 0 entries
      | null | bool | number | string | object => rfl
  | action event =>
    rw [stages, perform, Record.actionStage, Record.action_eq]
    cases r.readAction <;> rfl
  | slot =>
    rw [stages, perform, Record.action_eq, Record.actionType, Record.scalar_eq]
    cases r.readAction with
    | absent | bad => rfl
    | text s =>
      cases r.readText "action_type" with
      | absent | bad => rfl
      | text name =>
        simp only [Reading.result]
        cases isAttributeName name <;> rfl

theorem build_flatMap_stages (r : Record) (e : Rose) (tasks : List Task) :
    e.build (tasks.flatMap (Task.stages r)) = performAll r e tasks := by
  induction tasks generalizing e with
  | nil => rfl
  | cons task tasks ih =>
    rw [List.flatMap_cons, Dom.Rose.build_append, task.build_stages, performAll]
    simp only [ih]

/-- The stages of a record are those of the tasks of its kind, but for a last one without steps. -/
theorem Record.flatMap_stages_eq (settings : Settings) (kind : ElementKind) (r : Record) :
    ∃ last, (last = [] ∨ last = [.ok []]) ∧
      (kind.tasks settings).flatMap (Task.stages r) = r.stages settings kind ++ last := by
  cases kind with
  | text | button | link | image | div => exact ⟨[], .inl rfl, rfl⟩
  | select =>
    refine ⟨[], .inl rfl, ?_⟩
    simp [Record.stages, ElementKind.tasks, Task.stages]
  | input =>
    rw [Record.stages, ElementKind.tasks]
    simp only [List.flatMap_cons, List.flatMap_nil, List.append_nil, Task.stages,
      Record.inputActionStages, Record.actionStage]
    -- an action that is absent is a stage without steps for one, and no stage for the other
    cases r.action with
    | error x => exact ⟨[], .inl rfl, rfl⟩
    | ok a =>
      cases a with
      | none => exact ⟨[.ok []], .inr rfl, rfl⟩
      | some s => exact ⟨[], .inl rfl, rfl⟩

/-- **The stages of a record do the tasks of its kind.** -/
theorem build_record (settings : Settings) (kind : ElementKind) (r : Record) (e : Rose) :
    e.build (r.stages settings kind) = performAll r e (kind.tasks settings) := by
  obtain ⟨last, hlast, heq⟩ := r.flatMap_stages_eq settings kind
  rw [← build_flatMap_stages, heq]
  obtain rfl | rfl := hlast
  · rw [List.append_nil]
  · rw [e.build_append_empty]

/-! ## Visiting a record -/

theorem Record.kind?_eq_some_iff {r : Record} {kind : ElementKind} :
    r.kind? = some kind ↔
      ∃ name, r.get? "type" = some (.string name) ∧ ElementKind.ofTypeName? name = some kind := by
  rw [kind?, typeName?]
  cases r.get? "type" with
  | none => simp
  | some value => cases value <;> simp

theorem Record.kind?_eq_some {r : Record} {name : String} {kind : ElementKind}
    (htype : r.get? "type" = some (.string name))
    (hkind : ElementKind.ofTypeName? name = some kind) : r.kind? = some kind :=
  Record.kind?_eq_some_iff.2 ⟨name, htype, hkind⟩

/-- **What visiting a record does to a page**: a new element at the end of the container is built as
far as the tasks of its kind come, the error that ends them is the one diagnostic there is, and
nothing else changes. -/
theorem visit_record (settings : Settings) (xs : List Descriptor) (index : ℕ) (r : Record)
    {name : String} {kind : ElementKind} (htype : r.get? "type" = some (.string name))
    (hkind : ElementKind.ofTypeName? name = some kind) {d d' : Draft} {e : Rose}
    {result : Except FieldError Unit} (hd : d = Draft.after settings xs)
    (hd' : d' = d.visit settings index (.element r))
    (he : performAll r (.element kind.tag [] none []) (kind.tasks settings) = (result, e)) :
    ∃ n, d.Grown d' d.root n ∧ d'.document.tree.tag? n = some kind.tag ∧
      d'.document.tree.view n = some e ∧
      (d'.document.tree.element? n).bind Element.id = e.id? ∧
      d'.diagnostics.toList = d.diagnostics.toList ++ diagnosticsOf index result := by
  have hshows : d.Shows settings _ := hd ▸ Draft.shows_after settings xs
  have hroot : d.root = Place.root.node := hshows.parent_eq .root
  have hreachable := Draft.reachable_after settings xs
  rw [← hd] at hreachable
  rw [Draft.visit_of_kind? (Record.kind?_eq_some htype hkind)] at hd'
  subst hd'
  rw [← build_record] at he
  obtain ⟨n, hgrown, hview, hdiagnostics⟩ :=
    hshows.grown_add index (Part.ofRecord settings kind r)
  have hbuilt := hreachable.of_granted hgrown.granted
  have htag := tag?_of_view hbuilt.wellFormed hview
  rw [Part.tag?_rose] at htag
  have hshown : (Part.ofRecord settings kind r).rose = e := congrArg Prod.snd he
  have hresult : ((Rose.element (Part.ofRecord settings kind r).tag [] none []).build
      (Part.ofRecord settings kind r).stages).1 = result := congrArg Prod.fst he
  rw [hshown] at hview
  rw [hresult] at hdiagnostics
  rw [hroot]
  exact ⟨n, hgrown, htag, hview, hbuilt.id_eq_of_view hview, hdiagnostics⟩

/-- A select control whose second option is an array. -/
def badSelect : Record :=
  ⟨[("type", .string "select"), ("id", .string "size"), ("action", .string "pick()"),
    ("options", .array [.string "small", .array [], .string "large"])]⟩

/-- The options before a bad one stay, and what would come after it is not done. -/
theorem visit_badSelect :
    badSelect.get? "type" = some (.string "select") ∧
      ElementKind.ofTypeName? "select" = some .select ∧
      ∃ d d' n, d = Draft.after {} [.directive "hr", .invalid .null] ∧
        d' = d.visit {} 3 (.element badSelect) ∧ d.Grown d' d.root n ∧
        d'.document.tree.tag? n = some "select" ∧
        d'.document.tree.view n = some (.element "select" [("id", "size")] (some 0)
          [.element "option" [] none [.text "small"]]) ∧
        (d'.document.tree.element? n).bind Element.id = some "size" ∧
        d'.diagnostics.toList = d.diagnostics.toList ++
          [⟨3, .field (.wrongType "options[1]" .scalar .array)⟩] := by
  have hperform : performAll badSelect (.element "select" [] none [])
      (ElementKind.tasks {} .select) =
        (.error (.wrongType "options[1]" .scalar .array),
          .element "select" [("id", "size")] (some 0)
            [.element "option" [] none [.text "small"]]) := rfl
  obtain ⟨n, hn⟩ :=
    visit_record {} [.directive "hr", .invalid .null] 3 badSelect rfl rfl rfl rfl hperform
  exact ⟨rfl, rfl, _, _, n, rfl, rfl, hn⟩

end PageBuilder
