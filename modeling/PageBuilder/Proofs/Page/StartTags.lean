import PageBuilder.Proofs.Dom.Attributes
import PageBuilder.Proofs.Markup.StartTags
import PageBuilder.Proofs.Page.Inputs
import PageBuilder.Proofs.Page.Spacing

/-!
# Start tags on pages

An attribute that is set twice is there once, with the later value. So no start tag has the same
name twice, letter by letter. But names that differ in the case of their letters are one name in
HTML, and they are two here: this can come about in an input alone, whose record may name an
attribute of its own (`Record.Repeats`). `compile_startTags` says that it comes about in no other
way.
-/

namespace PageBuilder

open Dom Markup

variable {name : String} {names : List String} {attributes : List (String × String)}
  {settings : Settings} {xs : List Descriptor} {x : Descriptor} {part : Part}
  {P : List String → Prop}

/-! ## Names in lower case -/

/-- Names in lower case, none of them twice. -/
def LowerNames (names : List String) : Prop :=
  names.Nodup ∧ ∀ name ∈ names, name.toLower = name

theorem LowerNames.nodup_map (h : LowerNames names) : (names.map String.toLower).Nodup := by
  rw [List.map_congr_left h.2, List.map_id']
  exact h.1

theorem lowerNames_setAttribute {e : Rose} (h : LowerNames e.attributeNames)
    (hname : name.toLower = name) (value : String) :
    LowerNames (e.setAttribute name value).attributeNames := by
  cases e with
  | document | text => exact h
  | element tag attributes selectedIndex children =>
    refine ⟨nodup_setNamed name value h.1, fun other hother => ?_⟩
    rw [Rose.setAttribute, Rose.attributeNames, map_fst_setNamed] at hother
    split at hother
    · exact h.2 other hother
    · rcases List.mem_append.1 hother with hold | hnew
      · exact h.2 other hold
      · rw [List.mem_singleton.1 hnew, hname]

theorem attributeNames_append (e c : Rose) : (e.append c).attributeNames = e.attributeNames := by
  cases e <;> rfl

theorem attributeNames_addOptions (e : Rose) (i : ℕ) (entries : List Json) :
    (addOptions e i entries).2.attributeNames = e.attributeNames := by
  induction entries generalizing e i with
  | nil => rfl
  | cons entry entries ih =>
    rw [addOptions]
    cases entry.text? with
    | none => rfl
    | some label => rw [ih, attributeNames_append]

/-- Tasks that set no attribute, or one whose name is in lower case whatever the record holds. -/
def Task.IsLower : Task → Prop
  | id | text _ | select | options => True
  | required _ name | optional _ name | fixed name _ | action name => name.toLower = name
  | slot => False

theorem lowerNames_use {e : Rose} {absent : Except FieldError Unit} {f : String → Rose}
    (h : LowerNames e.attributeNames) (hf : ∀ s, LowerNames (f s).attributeNames)
    (reading : Reading) : LowerNames (reading.use e absent f).2.attributeNames := by
  cases reading with
  | absent | bad => exact h
  | text s => exact hf s

theorem Task.IsLower.lowerNames_perform {task : Task} (htask : task.IsLower) (r : Record) {e : Rose}
    (h : LowerNames e.attributeNames) : LowerNames (task.perform r e).2.attributeNames := by
  cases task with
  | id =>
    refine lowerNames_use h (fun s => ?_) _
    split
    · exact h
    · exact lowerNames_setAttribute h (by decide +kernel) s
  | text field => exact lowerNames_use h (fun s => by rwa [attributeNames_append]) _
  | required field name | optional field name =>
    exact lowerNames_use h (fun s => lowerNames_setAttribute h htask s) _
  | action event => exact lowerNames_use h (fun s => lowerNames_setAttribute h htask s) _
  | fixed name value => exact lowerNames_setAttribute h htask value
  | select => cases e <;> exact h
  | options =>
    rw [perform]
    split
    · exact h
    · exact h
    · rwa [attributeNames_addOptions]
    · exact h
  | slot => cases htask

theorem lowerNames_performAll {tasks : List Task} (htasks : ∀ task ∈ tasks, task.IsLower)
    (r : Record) {e : Rose} (h : LowerNames e.attributeNames) :
    LowerNames (performAll r e tasks).2.attributeNames := by
  induction tasks generalizing e with
  | nil => exact h
  | cons task tasks ih =>
    rw [List.forall_mem_cons] at htasks
    have hstep := htasks.1.lowerNames_perform r h
    rw [performAll]
    split
    · rename_i e' heq
      rw [heq] at hstep
      exact ih htasks.2 hstep
    · rename_i x e' heq
      rwa [heq] at hstep

/-- Only an input has an attribute that its record names. -/
theorem lowerNames_ofRecord (settings : Settings) {kind : ElementKind} (hkind : kind ≠ .input)
    (r : Record) : LowerNames (Part.ofRecord settings kind r).rose.attributeNames := by
  have htasks : ∀ task ∈ kind.tasks settings, task.IsLower := by
    cases kind with
    | input => exact absurd rfl hkind
    | text | button | link | select | image | div =>
      simp only [ElementKind.tasks, List.forall_mem_cons, Task.IsLower, List.not_mem_nil,
        false_implies, implies_true]
      decide +kernel
  have hrose : (Part.ofRecord settings kind r).rose =
      (performAll r (.element kind.tag [] none []) (kind.tasks settings)).2 :=
    congrArg Prod.snd (build_record settings kind r (.element kind.tag [] none []))
  rw [hrose]
  exact lowerNames_performAll htasks r ⟨List.nodup_nil, by simp [Rose.attributeNames]⟩

/-! ## Names of inputs -/

/-- No step sets a name twice. -/
theorem nodup_attributeNames_rose (part : Part) : part.rose.attributeNames.Nodup := by
  refine build_induction (I := fun e => e.attributeNames.Nodup) (Q := fun _ => True) ?_ ?_
    List.nodup_nil
  · intro step e _ h
    cases e with
    | document | text => cases step <;> exact h
    | element =>
      cases step with
      | setId id => exact nodup_setNamed "id" id h
      | setAttribute name value => exact nodup_setNamed name value h
      | setSelectedIndex | addText | addOption => exact h
  · exact fun _ _ _ _ _ _ => trivial

/-- An input whose action is bound to a name that differs from one that the input has already in the
case of its letters alone. -/
def Record.Repeats (r : Record) : Prop :=
  r.kind? = some .input ∧ ∃ id type placeholder action name,
    r.id = .ok id ∧ r.scalar "input_type" = .ok type ∧ r.scalar "placeholder" = .ok placeholder ∧
    r.action = .ok (some action) ∧ r.actionType = .ok (some name) ∧
    ∃ other ∈ (inputAttributes id type placeholder).map (·.1) ++ ["onchange"],
      other ≠ name ∧ other.toLower = name.toLower

theorem sublist_inputAttributes (id type placeholder : Option String) :
    ((inputAttributes id type placeholder).map (·.1)).Sublist ["id", "type", "placeholder"] := by
  cases id <;> cases type <;> cases placeholder <;> simp [inputAttributes]

/-- The names that an input has in any case are apart, whatever the case of their letters. -/
theorem nodup_map_own (id type placeholder : Option String) :
    (((inputAttributes id type placeholder).map (·.1) ++ ["onchange"]).map
      String.toLower).Nodup := by
  have hall : (["id", "type", "placeholder", "onchange"].map String.toLower).Nodup := by
    decide +kernel
  have hsublist := (sublist_inputAttributes id type placeholder).append_right ["onchange"]
  exact hall.sublist (hsublist.map String.toLower)

theorem map_fst_setNamed_onchange (id type placeholder : Option String) (action : String) :
    (setNamed "onchange" action (inputAttributes id type placeholder)).map (·.1) =
      (inputAttributes id type placeholder).map (·.1) ++ ["onchange"] := by
  rw [map_fst_setNamed, if_neg]
  intro hmem
  exact absurd ((sublist_inputAttributes id type placeholder).subset hmem) (by decide)

theorem repeats_iff {r : Record} {id type placeholder action : Option String}
    (hkind : r.kind? = some .input) (hid : r.id = .ok id) (htype : r.scalar "input_type" = .ok type)
    (hplaceholder : r.scalar "placeholder" = .ok placeholder) (haction : r.action = .ok action) :
    r.Repeats ↔ ∃ name, action.isSome = true ∧ r.actionType = .ok (some name) ∧
      ∃ other ∈ (inputAttributes id type placeholder).map (·.1) ++ ["onchange"],
        other ≠ name ∧ other.toLower = name.toLower := by
  constructor
  · rintro ⟨-, id', type', placeholder', action', name, hid', htype', hplaceholder', haction',
      hname, hother⟩
    cases hid.symm.trans hid'
    cases htype.symm.trans htype'
    cases hplaceholder.symm.trans hplaceholder'
    cases haction.symm.trans haction'
    exact ⟨name, rfl, hname, hother⟩
  · rintro ⟨name, hsome, hname, hother⟩
    obtain ⟨action, rfl⟩ := Option.isSome_iff_exists.1 hsome
    exact ⟨hkind, id, type, placeholder, action, name, hid, htype, hplaceholder, haction, hname,
      hother⟩

/-- The names of an input are apart, whatever the case of their letters, unless it repeats one. -/
theorem nodup_map_rose_input_iff (settings : Settings) {r : Record}
    (hkind : r.kind? = some .input) :
    ((Part.ofRecord settings .input r).rose.attributeNames.map String.toLower).Nodup ↔
      ¬ r.Repeats := by
  by_cases hread : ∃ id type placeholder action, r.id = .ok id ∧
      r.scalar "input_type" = .ok type ∧ r.scalar "placeholder" = .ok placeholder ∧
      r.action = .ok action
  · obtain ⟨id, type, placeholder, action, hid, htype, hplaceholder, haction⟩ := hread
    rw [rose_input settings hid htype hplaceholder haction,
      repeats_iff hkind hid htype hplaceholder haction, bindAction, Record.boundNames, haction]
    have hown := nodup_map_own id type placeholder
    cases action with
    | none =>
      refine iff_of_true ?_ ?_
      · exact hown.sublist ((List.sublist_append_left _ _).map String.toLower)
      · rintro ⟨name, ⟨⟩, -⟩
    | some action =>
      rw [← map_fst_setNamed_onchange id type placeholder action] at hown ⊢
      cases r.actionType with
      | error e =>
        refine iff_of_true hown ?_
        rintro ⟨name, -, ⟨⟩, -⟩
      | ok slot =>
        cases slot with
        | none =>
          refine iff_of_true hown ?_
          rintro ⟨name, -, ⟨⟩, -⟩
        | some name =>
          refine (nodup_map_setNamed_iff action hown).trans ⟨?_, fun h other hother heq => ?_⟩
          · rintro h ⟨_, -, ⟨⟩, other, hother, hne, heq⟩
            exact hne (h other hother heq)
          · by_contra hne
            exact h ⟨name, rfl, rfl, other, hother, hne, heq⟩
  · obtain ⟨id, type, placeholder, hrose⟩ := exists_rose_of_unreadable settings r hread
    rw [hrose]
    refine iff_of_true ?_ ?_
    · exact (nodup_map_own id type placeholder).sublist
        ((List.sublist_append_left _ _).map String.toLower)
    · rintro ⟨-, id, type, placeholder, action, name, hid, htype, hplaceholder, haction, -⟩
      exact hread ⟨id, type, placeholder, some action, hid, htype, hplaceholder, haction⟩

/-! ## Elements of descriptors -/

theorem isBare_of_shaped {tag : String} {C : List Rose → Prop} {r : Rose} (h : Shaped tag C r)
    (hC : ∀ cs, C cs → ∀ c ∈ cs, c.IsBare) : ∀ c ∈ r.children, c.IsBare := by
  cases r with
  | document | text => cases h
  | element => exact hC _ h.2.2

theorem isBare_ofRecord (settings : Settings) (kind : ElementKind) (r : Record) :
    ∀ c ∈ (Part.ofRecord settings kind r).rose.children, c.IsBare := by
  have htext : ∀ cs, AtMostText cs → ∀ c ∈ cs, c.IsBare := fun cs hcs c hc => .inl (hcs.isText c hc)
  have hempty : ∀ cs : List Rose, cs = [] → ∀ c ∈ cs, c.IsBare := by
    rintro _ rfl c ⟨⟩
  cases kind with
  | text => exact isBare_of_shaped (r.shaped_text_or_button .text (.inl rfl) settings) htext
  | button => exact isBare_of_shaped (r.shaped_text_or_button .button (.inr rfl) settings) htext
  | link => exact isBare_of_shaped (r.shaped_link settings) htext
  | select => exact isBare_of_shaped (r.shaped_select settings) fun cs hcs c hc => .inr (hcs c hc)
  | image => exact isBare_of_shaped (r.shaped_image settings) hempty
  | input => exact isBare_of_shaped (r.shaped_input settings) hempty
  | div => exact isBare_of_shaped (r.shaped_div settings) hempty

/-- A directive's element has no attributes, and nothing but a text in it. -/
theorem exists_rose_ofDirective (s : String) :
    ∃ tag cs, (Part.ofDirective s).rose = .element tag [] none cs ∧ ∀ c ∈ cs, c.IsBare := by
  rw [Part.ofDirective]
  split
  · exact ⟨s, [], rfl, by simp⟩
  · cases styleText? s with
    | none => exact ⟨"p", [.text s], rfl, List.forall_mem_singleton.2 (.inl rfl)⟩
    | some css => exact ⟨"style", [.text css], rfl, List.forall_mem_singleton.2 (.inl rfl)⟩

theorem isBare_of_part? (hx : x.part? settings = some part) :
    ∀ c ∈ part.rose.children, c.IsBare := by
  cases x with
  | directive s =>
    cases hx
    obtain ⟨tag, cs, hrose, hbare⟩ := exists_rose_ofDirective s
    rw [hrose]
    exact hbare
  | element r =>
    obtain ⟨kind, -, rfl⟩ := Option.map_eq_some_iff.1 hx
    exact isBare_ofRecord settings kind r
  | invalid value => cases hx

/-- **The start tags of a page** are those of its skeleton and of the elements that its descriptors
ask for. -/
theorem forall_mem_pieces_compile (hP : P []) (hid : P ["id"]) (hselected : P ["selected"]) :
    (∀ q ∈ Markup.pieces (compile settings xs).1.document.tree
        (compile settings xs).1.document.html, P q.attributeNames) ↔
      ∀ x ∈ xs, ∀ part, x.part? settings = some part → P part.rose.attributeNames := by
  have hview : (compile settings xs).1.document.tree.view (compile settings xs).1.document.html =
      some (shownPage settings xs) := (compile_shows settings xs).view_html
  rw [Markup.pieces, hview]
  show (shownPage settings xs).AllTags P ↔ _
  have hplaces : (shownPage settings xs).AllTags P ↔
      ∀ place, ∀ r ∈ xs.flatMap (Descriptor.shown settings place), r.AllTags P := by
    rw [shownPage, pageRose, Rose.allTags_container hP (by decide) (by decide)]
    simp only [List.forall_mem_cons]
    rw [Rose.allTags_container hP (by decide) (by decide),
      Rose.allTags_container hP (by decide) (by decide)]
    simp only [List.forall_mem_cons]
    rw [Rose.allTags_container hP (by decide) (by decide)]
    simp only [List.map_nil, List.map_cons, hP, hid, true_and, List.not_mem_nil, false_implies,
      implies_true, and_true]
    refine ⟨fun h place => ?_, fun h => ⟨h .head, h .root⟩⟩
    cases place with
    | head => exact h.1
    | root => exact h.2
  rw [hplaces]
  have hpart : ∀ (x : Descriptor) (part : Part), x.part? settings = some part →
      (part.rose.AllTags P ↔ P part.rose.attributeNames) := fun x part hx =>
    Rose.allTags_iff_of_isBare (isElement_rose part) (isBare_of_part? hx) hP hselected
  constructor
  · intro h x hx part hxpart
    refine (hpart x part hxpart).1 (h part.place _ (List.mem_flatMap.2 ⟨x, hx, ?_⟩))
    rw [shown_place hxpart]
    exact List.mem_singleton_self _
  · intro h place r hr
    obtain ⟨x, hx, hshown⟩ := List.mem_flatMap.1 hr
    obtain ⟨part, hxpart, rfl⟩ := exists_part?_of_mem_shown hshown
    exact (hpart x part hxpart).2 (h x hx part hxpart)

/-! ## Pages -/

/-- The names in the start tag of a descriptor's element are apart, whatever the case of their
letters, unless the descriptor is an input that repeats one. -/
theorem nodup_map_rose_iff (hx : x.part? settings = some part) :
    (part.rose.attributeNames.map String.toLower).Nodup ↔
      ∀ r, x = .element r → ¬ r.Repeats := by
  cases x with
  | directive s =>
    cases hx
    obtain ⟨tag, cs, hrose, -⟩ := exists_rose_ofDirective s
    rw [hrose]
    refine iff_of_true List.nodup_nil ?_
    rintro r ⟨⟩
  | element r =>
    obtain ⟨kind, hkind, rfl⟩ := Option.map_eq_some_iff.1 hx
    have hself : (∀ r', Descriptor.element r = .element r' → ¬ r'.Repeats) ↔ ¬ r.Repeats := by
      refine ⟨fun h => h r rfl, ?_⟩
      rintro h r' ⟨⟩
      exact h
    rw [hself]
    by_cases hinput : kind = .input
    · subst hinput
      exact nodup_map_rose_input_iff settings hkind
    · refine iff_of_true (lowerNames_ofRecord settings hinput r).nodup_map ?_
      rintro ⟨hkind', -⟩
      exact hinput (Option.some.inj (hkind.symm.trans hkind'))
  | invalid value => cases hx

/-- **No start tag of a page has an attribute twice, letter by letter; ignoring the case of letters,
one has exactly if the description holds an input that repeats one.** The start tags are those among
the pieces that the page is made of, in every layout, with the mark of a selected option. -/
theorem compile_startTags (settings : Settings) (xs : List Descriptor) :
    let p := (compile settings xs).1
    let ps := Markup.pieces p.document.tree p.document.html
    p.html .compact = doctype ++ Piece.compact ps ∧
      (∀ unit, p.html (.indented unit) = doctype ++ Piece.indented unit 0 ps ++ "\n") ∧
      (∀ q ∈ ps, q.attributeNames.Nodup) ∧
      ((∀ q ∈ ps, (q.attributeNames.map String.toLower).Nodup) ↔
        ∀ r, Descriptor.element r ∈ xs → ¬ r.Repeats) := by
  intro p ps
  have hwf : p.document.tree.WellFormed := (Draft.reachable_after settings xs).wellFormed
  refine ⟨?_, fun unit => ?_, ?_, ?_⟩
  · rw [Page.html, page, outer_compact_eq hwf]
    exact String.append_empty
  · rw [Page.html, page, outer_indented_eq hwf]
    rfl
  · refine (forall_mem_pieces_compile (P := List.Nodup) List.nodup_nil (by decide) (by decide)).2 ?_
    exact fun x _ part _ => nodup_attributeNames_rose part
  · refine (forall_mem_pieces_compile (P := fun names => (names.map String.toLower).Nodup)
      List.nodup_nil (by decide +kernel) (by decide +kernel)).trans ?_
    constructor
    · intro h r hr hrepeats
      have hpart : (Descriptor.element r).part? settings =
          some (Part.ofRecord settings .input r) := by
        rw [Descriptor.part?, hrepeats.1]
        rfl
      exact (nodup_map_rose_iff hpart).1 (h _ hr _ hpart) r rfl hrepeats
    · intro h x hx part hpart
      refine (nodup_map_rose_iff hpart).2 ?_
      rintro r rfl
      exact h r hx

/-- An input whose action is bound to `onchange` in capital letters. -/
def upperCaseInput : Record :=
  ((Record.ofType "input").set "action" (.string "f")).set "action_type" (.string "ONCHANGE")

/-- Such an input has two attributes with that name, and nothing is reported. -/
theorem not_nodup_upperCaseInput :
    (compile {} [.element upperCaseInput]).1.isClean = true ∧
      (compile {} [.element upperCaseInput]).1.rootMarkup .compact =
        "<input onchange=\"f\" ONCHANGE=\"f\" />" ∧
      ¬ ∀ q ∈ Markup.pieces (compile {} [.element upperCaseInput]).1.document.tree
          (compile {} [.element upperCaseInput]).1.document.html,
        (q.attributeNames.map String.toLower).Nodup := by
  have hnames : ["onchange", "ONCHANGE"] ∈
      (Markup.pieces (compile {} [.element upperCaseInput]).1.document.tree
        (compile {} [.element upperCaseInput]).1.document.html).map Piece.attributeNames := by
    decide +kernel
  obtain ⟨q, hq, hinput⟩ := List.mem_map.1 hnames
  refine ⟨by decide +kernel, by decide +kernel, fun h => ?_⟩
  have hlower : "onchange".toLower = "onchange" := by decide +kernel
  have hupper : "ONCHANGE".toLower = "onchange" := by decide +kernel
  have hnodup := h q hq
  rw [hinput, List.map_cons, List.map_singleton, hlower, hupper] at hnodup
  exact absurd hnodup (by decide)

end PageBuilder
