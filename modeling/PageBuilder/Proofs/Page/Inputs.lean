import PageBuilder.Proofs.Page.Accounts
import PageBuilder.Proofs.Page.Records

/-!
# Inputs

An input is given attributes from two sides. Its id, its type and its placeholder are fields of the
record. Its action is bound to changes, and to one more attribute if the record names one. Both
kinds are set in the same way, the bindings last, and so an action bound to `id`, `type` or
`placeholder` takes the place of what the record gives for it.

`rose_input` says which attributes an input ends up with, and `input_attributes` which value each of
them has on a page: the fields are there as they are given unless the action is bound over them.
-/

namespace PageBuilder

open Dom

variable {settings : Settings} {r : Record} {id type placeholder action : Option String}

/-! ## Elements in the container -/

/-- A descriptor shows its part in the place where it goes. -/
theorem shown_place {x : Descriptor} {part : Part} (hx : x.part? settings = some part) :
    x.shown settings part.place = [part.rose] := by
  rw [Descriptor.shown, hx]
  exact if_pos rfl

/-- The element that a descriptor puts into the container comes after those of the descriptors
before it. -/
theorem exists_rootChild {x : Descriptor} {part : Part} (hx : x.part? settings = some part)
    (hplace : part.place = .root) (before after : List Descriptor) :
    ∃ n, (compile settings (before ++ x :: after)).1.rootChildren[
        (before.filterMap Descriptor.rootTag?).length]? = some n ∧
      (compile settings (before ++ x :: after)).1.document.tree.view n = some part.rose := by
  have hshows := Draft.shows_after settings (before ++ x :: after)
  have hroot : (compile settings (before ++ x :: after)).1.root = Place.root.node :=
    hshows.parent_eq .root
  have hshown : x.shown settings .root = [part.rose] := by rw [← hplace, shown_place hx]
  have hlength : (before.filterMap Descriptor.rootTag?).length =
      (before.flatMap (Descriptor.shown settings .root)).length := by
    simpa using congrArg List.length (map_tag?_flatMap_shown_root settings before).symm
  -- the children of the container show what the descriptors add, one after another
  have hviews := hshows.skeleton.toWellLinked.map_children_eq
    (f := (Draft.after settings (before ++ x :: after)).document.tree.view) (g := some)
    (fun hr => hr) Place.root.node
  rw [hshows.childViews_eq, List.flatMap_append, List.flatMap_cons, hshown] at hviews
  have hview := congrArg (·[(before.filterMap Descriptor.rootTag?).length]?) hviews
  simp only [hlength, List.getElem?_map, List.getElem?_append_right (Nat.le_refl _), Nat.sub_self,
    List.singleton_append, List.getElem?_cons_zero, Option.map_some] at hview
  obtain ⟨n, hn, hr⟩ := Option.map_eq_some_iff.1 hview
  rw [Page.rootChildren, hroot, hlength]
  exact ⟨n, hn, hr⟩

/-! ## Attributes of inputs -/

/-- The attributes that the fields of an input's record give. -/
def inputAttributes (id type placeholder : Option String) : List (String × String) :=
  [("id", id), ("type", type), ("placeholder", placeholder)].filterMap fun (name, value) =>
    value.map (name, ·)

/-- The names that an input's action is bound to. -/
def Record.boundNames (r : Record) : List String :=
  match r.action, r.actionType with
  | .ok (some _), .ok (some name) => ["onchange", name]
  | .ok (some _), _ => ["onchange"]
  | _, _ => []

/-- Attributes with one more set, if there is a value for it. -/
def setGiven (name : String) (value : Option String) (attributes : List (String × String)) :
    List (String × String) :=
  value.elim attributes fun value => setNamed name value attributes

theorem lookup_setGiven (name : String) (value : Option String)
    (attributes : List (String × String)) (other : String) :
    (setGiven name value attributes).lookup other =
      if name = other then value.or (attributes.lookup other) else attributes.lookup other := by
  cases value with
  | none => rw [setGiven, Option.elim_none, Option.none_or, ite_self]
  | some value => rw [setGiven, Option.elim_some, lookup_setNamed, Option.some_or]

theorem inputAttributes_eq (id type placeholder : Option String) :
    inputAttributes id type placeholder =
      setGiven "placeholder" placeholder (setGiven "type" type (setGiven "id" id [])) := by
  cases id <;> cases type <;> cases placeholder <;> rfl

/-- Attributes with the action of an input set for all names that it is bound to. -/
def bindAction (r : Record) (action : Option String) (attributes : List (String × String)) :
    List (String × String) :=
  r.boundNames.foldl (fun attributes name => setGiven name action attributes) attributes

theorem build_inputActionStages (haction : r.action = .ok action) (tag : String)
    (attributes : List (String × String)) :
    ((Rose.element tag attributes none []).build r.inputActionStages).2 =
      .element tag (bindAction r action attributes) none [] := by
  rw [Record.inputActionStages, bindAction, Record.boundNames, haction]
  cases action with
  | none => rfl
  | some a =>
    cases r.actionType with
    | error e => rfl
    | ok name => cases name <;> rfl

/-- **The attributes of an input** whose fields can be read: those of the fields, and then the
action under every name that it is bound to. -/
theorem rose_input (settings : Settings) (hid : r.id = .ok id)
    (htype : r.scalar "input_type" = .ok type)
    (hplaceholder : r.scalar "placeholder" = .ok placeholder) (haction : r.action = .ok action) :
    (Part.ofRecord settings .input r).rose =
      .element "input" (bindAction r action (inputAttributes id type placeholder)) none [] := by
  have hfields : (Rose.element "input" [] none []).build (r.stages settings .input) =
      (Rose.element "input" (inputAttributes id type placeholder) none []).build
        r.inputActionStages := by
    rw [Record.stages, Record.idStage, Record.optionalStage, Record.optionalStage, hid, htype,
      hplaceholder, inputAttributes_eq]
    cases id <;> cases type <;> cases placeholder <;> rfl
  show ((Rose.element "input" [] none []).build (r.stages settings .input)).2 = _
  rw [hfields, build_inputActionStages haction]

/-- If a field of an input cannot be read, the action is not bound to a name that the record
gives. -/
theorem exists_rose_of_unreadable (settings : Settings) (r : Record)
    (hbad : ¬ ∃ id type placeholder action, r.id = .ok id ∧ r.scalar "input_type" = .ok type ∧
      r.scalar "placeholder" = .ok placeholder ∧ r.action = .ok action) :
    ∃ id type placeholder, (Part.ofRecord settings .input r).rose =
      .element "input" (inputAttributes id type placeholder) none [] := by
  show ∃ id type placeholder,
    ((Rose.element "input" [] none []).build (r.stages settings .input)).2 = _
  rw [Record.stages, Record.idStage, Record.optionalStage, Record.optionalStage,
    Record.inputActionStages]
  cases hid : r.id with
  | error e => exact ⟨none, none, none, rfl⟩
  | ok id =>
    cases htype : r.scalar "input_type" with
    | error e =>
      refine ⟨id, none, none, ?_⟩
      cases id <;> rfl
    | ok type =>
      cases hplaceholder : r.scalar "placeholder" with
      | error e =>
        refine ⟨id, type, none, ?_⟩
        cases id <;> cases type <;> rfl
      | ok placeholder =>
        cases haction : r.action with
        | error e =>
          refine ⟨id, type, placeholder, ?_⟩
          cases id <;> cases type <;> cases placeholder <;> rfl
        | ok action =>
          exact absurd ⟨id, type, placeholder, action, hid, htype, hplaceholder, haction⟩ hbad

/-- Binding an action changes the attributes that it is bound to, and no others. -/
theorem lookup_bindAction (haction : r.action = .ok action) (attributes : List (String × String))
    (name : String) :
    (bindAction r action attributes).lookup name =
      if name ∈ r.boundNames then action else attributes.lookup name := by
  cases action with
  | none =>
    have hnone : r.boundNames = [] := by rw [Record.boundNames, haction]
    rw [bindAction, hnone, List.foldl_nil, if_neg List.not_mem_nil]
  | some a =>
    rw [bindAction]
    induction r.boundNames generalizing attributes with
    | nil => rw [List.foldl_nil, if_neg List.not_mem_nil]
    | cons bound names ih =>
      rw [List.foldl_cons, ih, lookup_setGiven, Option.some_or]
      by_cases hmem : name ∈ names
      · rw [if_pos hmem, if_pos (List.mem_cons_of_mem bound hmem)]
      · simp only [List.mem_cons, hmem, or_false, if_false, eq_comm]

theorem lookup_inputAttributes (id type placeholder : Option String) :
    (inputAttributes id type placeholder).lookup "id" = id ∧
      (inputAttributes id type placeholder).lookup "type" = type ∧
      (inputAttributes id type placeholder).lookup "placeholder" = placeholder := by
  cases id <;> cases type <;> cases placeholder <;> exact ⟨rfl, rfl, rfl⟩

/-! ## Inputs on a page -/

/-- **What an input carries on a page**, wherever it stands in a description: the action under every
name that it is bound to, and otherwise what the fields of its record give. The id, the type and the
placeholder are therefore those of the record exactly if the action is not bound over one of them
that differs from it. -/
theorem input_attributes (settings : Settings) (before after : List Descriptor)
    (hkind : r.kind? = some .input) (hid : r.id = .ok id) (htype : r.scalar "input_type" = .ok type)
    (hplaceholder : r.scalar "placeholder" = .ok placeholder) (haction : r.action = .ok action) :
    let p := (compile settings (before ++ .element r :: after)).1
    let own := inputAttributes id type placeholder
    ∃ n, p.rootChildren[(before.filterMap Descriptor.rootTag?).length]? = some n ∧
      p.document.tree.tag? n = some "input" ∧
      (∀ name, p.document.tree.attribute? n name =
        if name ∈ r.boundNames then action else own.lookup name) ∧
      ((p.document.tree.attribute? n "id" = id ∧ p.document.tree.attribute? n "type" = type ∧
          p.document.tree.attribute? n "placeholder" = placeholder) ↔
        ∀ name ∈ ["id", "type", "placeholder"],
          name ∈ r.boundNames → own.lookup name = action) := by
  intro p own
  have hpart : (Descriptor.element r).part? settings = some (Part.ofRecord settings .input r) := by
    rw [Descriptor.part?, hkind]
    rfl
  obtain ⟨n, hn, hview⟩ := exists_rootChild hpart rfl before after
  have hwf : p.document.tree.WellFormed :=
    (Draft.reachable_after settings (before ++ .element r :: after)).wellFormed
  have hvalue : ∀ name, p.document.tree.attribute? n name =
      if name ∈ r.boundNames then action else own.lookup name := by
    intro name
    rw [hwf.attribute?_of_view hview, rose_input settings hid htype hplaceholder haction]
    exact lookup_bindAction haction own name
  refine ⟨n, hn, ?_, hvalue, ?_⟩
  · rw [tag?_of_view hwf hview, Part.tag?_rose]
    rfl
  · obtain ⟨hownId, hownType, hownPlaceholder⟩ : own.lookup "id" = id ∧
        own.lookup "type" = type ∧ own.lookup "placeholder" = placeholder :=
      lookup_inputAttributes id type placeholder
    have hkept : ∀ name, p.document.tree.attribute? n name = own.lookup name ↔
        (name ∈ r.boundNames → own.lookup name = action) := by
      intro name
      rw [hvalue]
      by_cases hbound : name ∈ r.boundNames
      · simp only [hbound, if_true, forall_const, eq_comm]
      · simp only [hbound, if_false, false_implies]
    simp only [List.forall_mem_cons, ← hkept, hownId, hownType, hownPlaceholder,
      List.not_mem_nil, false_implies, implies_true, and_true]

/-- An input with an id, whose action is bound to one more attribute. -/
def boundInput (name : String) : Record :=
  (((Record.ofType "input").set "id" (.string "a")).set "action" (.string "f")).set "action_type"
    (.string name)

/-- An input after a rule, with its action bound to a second event, keeps its id. -/
theorem input_attributes_boundInput :
    let r := boundInput "onkeyup"
    let p := (compile {} [.directive "hr", .element r]).1
    r.kind? = some .input ∧ r.id = .ok (some "a") ∧ r.scalar "input_type" = .ok none ∧
      r.scalar "placeholder" = .ok none ∧ r.action = .ok (some "f") ∧
      ∃ n, p.rootChildren[1]? = some n ∧ p.document.tree.attribute? n "id" = some "a" ∧
        p.document.tree.attribute? n "type" = none ∧
        p.document.tree.attribute? n "placeholder" = none ∧
        p.document.tree.attribute? n "onkeyup" = some "f" := by
  intro r p
  have hkind : r.kind? = some .input := by decide +kernel
  have hid : r.id = .ok (some "a") := by decide +kernel
  have htype : r.scalar "input_type" = .ok none := by decide +kernel
  have hplaceholder : r.scalar "placeholder" = .ok none := by decide +kernel
  have haction : r.action = .ok (some "f") := by decide +kernel
  have hbound : r.boundNames = ["onchange", "onkeyup"] := by decide +kernel
  have hposition : ([.directive "hr"].filterMap Descriptor.rootTag?).length = 1 := by decide +kernel
  have hinput := input_attributes {} [.directive "hr"] [] hkind hid htype hplaceholder haction
  simp only [hposition, List.singleton_append] at hinput
  obtain ⟨n, hn, -, hvalue, hkept⟩ := hinput
  obtain ⟨hown, htypeless, hempty⟩ := hkept.2 (by rw [hbound]; decide)
  refine ⟨hkind, hid, htype, hplaceholder, haction, n, hn, hown, htypeless, hempty, ?_⟩
  rw [hvalue, hbound]
  rfl

/-- An input whose action is bound to `id` does not keep its id: it can be found by the action, not
by the id it was given, and nothing is reported. -/
theorem input_id_ne_of_boundInput :
    let r := boundInput "id"
    let p := (compile {} [.element r]).1
    r.kind? = some .input ∧ r.id = .ok (some "a") ∧ r.scalar "input_type" = .ok none ∧
      r.scalar "placeholder" = .ok none ∧ r.action = .ok (some "f") ∧
      p.rootChildren = [⟨5⟩] ∧ p.document.tree.attribute? ⟨5⟩ "id" = some "f" ∧
      p.document.elementById? "a" = none ∧ p.document.elementById? "f" = some ⟨5⟩ ∧
      p.isClean = true := by
  decide +kernel

end PageBuilder
