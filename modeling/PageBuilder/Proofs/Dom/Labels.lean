import PageBuilder.Dom.View
import PageBuilder.Proofs.Dom.Attach

/-!
# Labels

The label of a node is what it shows by itself: its tag, its attributes by their names, its text
(`Tree.label?`). Together with `Tree.parent?` and `Tree.children` it is all that can be seen of a
tree, and every change is described by what it does to the three.

Names are stored by number. As long as every number in use has a name (`Named`), a label does not
change when the name table grows, and setting an attribute by its number is setting it by its name
(`label?_setAttribute`).
-/

namespace PageBuilder.Dom

/-- What a node shows by itself. -/
inductive Label where
  | document
  | element (tag : String) (attributes : List (String × String)) (selectedIndex : Option Nat)
  | text (s : String)
deriving DecidableEq

/-- Replaces the value of the first attribute with this name, or else adds one at the end. -/
def setNamed (name value : String) : List (String × String) → List (String × String)
  | [] => [(name, value)]
  | a :: rest => if a.1 = name then (a.1, value) :: rest else a :: setNamed name value rest

theorem lookup_cons (a : String × String) (attributes : List (String × String)) (name : String) :
    (a :: attributes).lookup name = if a.1 = name then some a.2 else attributes.lookup name := by
  rw [List.lookup_cons]
  by_cases ha : a.1 = name
  · simp [ha]
  · simp [ha, beq_false_of_ne (Ne.symm ha)]

/-- The names without a value are those that no attribute has. -/
theorem isNone_lookup (attributes : List (String × String)) (name : String) :
    (attributes.lookup name).isNone = !(attributes.map (·.1)).contains name := by
  induction attributes with
  | nil => rfl
  | cons a attributes ih =>
    rw [lookup_cons, List.map_cons, List.contains_cons]
    by_cases ha : a.1 = name
    · simp [ha]
    · simp [ha, Ne.symm ha, ih]

namespace Label

/-- Whether a node with this label may have children. -/
def canHaveChildren : Label → Bool
  | text _ => false
  | _ => true

/-- The label with an attribute set, if it is an element's. -/
def setAttribute (name value : String) : Label → Label
  | element tag attributes selectedIndex =>
    element tag (setNamed name value attributes) selectedIndex
  | l => l

/-- The label with a selected index, if it is an element's. -/
def setSelectedIndex (index : Nat) : Label → Label
  | element tag attributes _ => element tag attributes (some index)
  | l => l

end Label

/-- What a content shows by itself. -/
def Content.label (names : NameTable) : Content → Label
  | .document => .document
  | .element e =>
    .element (names.name e.name) (e.attributes.map fun a => (names.name a.name, a.value))
      e.selectedIndex
  | .text s => .text s

/-- The content with its element changed, if it is one. -/
def Content.mapElement (f : Element → Element) : Content → Content
  | .element e => .element (f e)
  | content => content

theorem NameTable.name_of_name? {names : NameTable} {n : NameId} {s : String}
    (h : names.name? n = some s) : names.name n = s := by
  rw [name, h, Option.getD_some]

/-- Growing a name table does not rename anything. -/
theorem NameTable.name_intern {names : NameTable} {n : NameId} {s : String}
    (h : names.name? n = some s) (other : String) :
    (names.intern other).2.name n = names.name n := by
  rw [name_of_name? h, name_of_name? (name?_intern_of_eq_some h other)]

theorem Node.element?_eq_some_iff {node : Node} {e : Element} :
    node.element? = some e ↔ node.content = .element e := by
  rw [Node.element?]
  split <;> simp_all

namespace Tree

/-- What a node shows by itself. -/
def label? (t : Tree) (n : NodeId) : Option Label :=
  (t.get? n).map fun node => node.content.label t.names

/-- Every number of a name that a tree uses has a name. -/
structure Named (t : Tree) : Prop where
  tag : ∀ {n e}, t.element? n = some e → ∃ s, t.names.name? e.name = some s
  attributes : ∀ {n e}, t.element? n = some e → ∀ a ∈ e.attributes,
    ∃ s, t.names.name? a.name = some s

/-- The tree after it has met a name. -/
def withName (t : Tree) (name : String) : Tree := { t with names := (t.names.intern name).2 }

variable {t : Tree} {n m p c : NodeId} {node : Node} {e : Element}

theorem element?_eq_some_iff :
    t.element? n = some e ↔ ∃ node, t.get? n = some node ∧ node.content = .element e := by
  simp only [element?, Option.bind_eq_some_iff, Node.element?_eq_some_iff]

theorem label?_of_element? (he : t.element? n = some e) :
    t.label? n = some ((Content.element e).label t.names) := by
  obtain ⟨node, hn, hcontent⟩ := element?_eq_some_iff.1 he
  rw [label?, hn, Option.map_some, hcontent]

/-- Elements are the nodes with the label of an element. -/
theorem isSome_element?_iff : (t.element? n).isSome ↔
    ∃ tag attributes selectedIndex, t.label? n = some (.element tag attributes selectedIndex) := by
  constructor
  · intro h
    obtain ⟨e, he⟩ := Option.isSome_iff_exists.1 h
    exact ⟨_, _, _, label?_of_element? he⟩
  · rintro ⟨tag, attributes, selectedIndex, hl⟩
    obtain ⟨node, hn, hlabel⟩ := Option.map_eq_some_iff.1 hl
    cases hcontent : node.content <;> rw [hcontent] at hlabel <;> cases hlabel
    rw [element?_eq_some_iff.2 ⟨node, hn, hcontent⟩]
    rfl

/-- The document is the root. -/
theorem WellLinked.label?_eq_document_iff (h : t.WellLinked) :
    t.label? n = some .document ↔ n = .root := by
  constructor
  · intro hl
    obtain ⟨node, hn, hlabel⟩ := Option.map_eq_some_iff.1 hl
    refine (h.document_iff hn).1 ?_
    cases hcontent : node.content <;> rw [hcontent] at hlabel <;> first | rfl | cases hlabel
  · rintro rfl
    obtain ⟨node, hroot, -⟩ := h.root
    rw [label?, hroot, Option.map_some, (h.document_iff hroot).2 rfl]
    rfl

/-- Looking up an attribute by its number is looking it up by its name. -/
theorem Named.bind_attribute?_eq (ht : t.Named) (he : t.element? n = some e) (name : String) :
    (t.names.find? name).bind e.attribute? = (t.namedAttributes e).lookup name := by
  have hnumber : ∀ a ∈ e.attributes,
      t.names.find? name = some a.name ↔ t.names.name a.name = name := by
    intro a ha
    obtain ⟨s, hs⟩ := ht.attributes he a ha
    rw [NameTable.find?_eq_some_iff, hs, Option.some.injEq, NameTable.name_of_name? hs]
  show ((t.names.find? name).bind fun id => (e.attributes.find? (·.name == id)).map (·.value)) = _
  rw [namedAttributes]
  generalize e.attributes = attributes at hnumber ⊢
  induction attributes with
  | nil => cases t.names.find? name <;> rfl
  | cons a attributes ih =>
    rw [List.forall_mem_cons] at hnumber
    rw [List.map_cons, lookup_cons, ← ih hnumber.2]
    by_cases ha : t.names.name a.name = name
    · rw [if_pos ha, hnumber.1.2 ha]
      simp
    · rw [if_neg ha]
      cases hfind : t.names.find? name with
      | none => rfl
      | some id =>
        have hother : a.name ≠ id := fun heq =>
          ha (hnumber.1.1 (hfind.trans (congrArg some heq.symm)))
        simp [hother]

/-- The value of an element's attribute is found among its attributes by their names. -/
theorem Named.attribute?_of_element? (ht : t.Named) (he : t.element? n = some e) (name : String) :
    t.attribute? n name = (t.namedAttributes e).lookup name := by
  rw [attribute?, he]
  exact ht.bind_attribute?_eq he name

/-- What is no element has no attributes. -/
theorem attribute?_of_element?_eq_none (he : t.element? n = none) (name : String) :
    t.attribute? n name = none := by
  rw [attribute?, he]
  cases t.names.find? name <;> rfl

/-! ## Meeting a name -/

theorem get?_withName (t : Tree) (name : String) (n : NodeId) :
    (t.withName name).get? n = (t.get? n).map fun node => node := by
  rw [Option.map_id']
  rfl

theorem WellLinked.withName (h : t.WellLinked) (name : String) : (t.withName name).WellLinked :=
  h.of_sameLinks (get?_withName t name) fun _ node _ => .refl node

theorem children_withName (h : t.WellLinked) (name : String) :
    (t.withName name).children = t.children :=
  children_of_sameLinks (get?_withName t name) (fun _ node _ => .refl node) h

theorem Named.withName (h : t.Named) (name : String) : (t.withName name).Named where
  tag := fun he => by
    obtain ⟨s, hs⟩ := h.tag he
    exact ⟨s, NameTable.name?_intern_of_eq_some hs name⟩
  attributes := fun he a ha => by
    obtain ⟨s, hs⟩ := h.attributes he a ha
    exact ⟨s, NameTable.name?_intern_of_eq_some hs name⟩

/-- No label changes when a name is met. -/
theorem label?_withName (h : t.Named) (name : String) (n : NodeId) :
    (t.withName name).label? n = t.label? n := by
  rw [label?, label?, get?_withName, Option.map_map]
  cases hn : t.get? n with
  | none => rfl
  | some node =>
    simp only [Option.map_some, Option.some.injEq, Function.comp_apply]
    cases hcontent : node.content with
    | document => rfl
    | text s => rfl
    | element e =>
      have he : t.element? n = some e := element?_eq_some_iff.2 ⟨node, hn, hcontent⟩
      obtain ⟨s, hs⟩ := h.tag he
      have hattributes :
          (e.attributes.map fun a => ((t.withName name).names.name a.name, a.value)) =
          e.attributes.map fun a => (t.names.name a.name, a.value) := by
        refine List.map_congr_left fun a ha => ?_
        obtain ⟨s, hs⟩ := h.attributes he a ha
        exact congrArg (·, a.value) (NameTable.name_intern hs name)
      simp only [Content.label, hattributes]
      exact congrArg (Label.element · _ _) (NameTable.name_intern hs name)

/-! ## A new node -/

theorem Named.add {content : Content} (h : t.Named)
    (hcontent : ∀ e, content = .element e →
      (∃ s, t.names.name? e.name = some s) ∧
        ∀ a ∈ e.attributes, ∃ s, t.names.name? a.name = some s) :
    (t.add content).2.Named where
  tag := fun he => by
    obtain ⟨node, hn, hnode⟩ := element?_eq_some_iff.1 he
    rcases eq_or_get?_of_get?_add hn with ⟨-, rfl⟩ | hn
    · exact (hcontent _ hnode).1
    · exact h.tag (element?_eq_some_iff.2 ⟨node, hn, hnode⟩)
  attributes := fun he => by
    obtain ⟨node, hn, hnode⟩ := element?_eq_some_iff.1 he
    rcases eq_or_get?_of_get?_add hn with ⟨-, rfl⟩ | hn
    · exact (hcontent _ hnode).2
    · exact h.attributes (element?_eq_some_iff.2 ⟨node, hn, hnode⟩)

theorem label?_add (t : Tree) (content : Content) (n : NodeId) :
    (t.add content).2.label? n =
      if n = (t.add content).1 then some (content.label t.names) else t.label? n := by
  rw [label?, label?, get?_add]
  split <;> rfl

theorem createElement_eq (t : Tree) (tag : String) :
    t.createElement tag =
      (t.withName tag).add (.element { name := (t.names.intern tag).1 }) := rfl

theorem WellLinked.createElement (h : t.WellLinked) (tag : String) :
    (t.createElement tag).2.WellLinked :=
  (h.withName tag).add (by simp)

theorem Named.createElement (h : t.Named) (tag : String) : (t.createElement tag).2.Named := by
  refine (h.withName tag).add fun e he => ?_
  obtain rfl := Content.element.inj he
  exact ⟨⟨tag, NameTable.name?_intern_self t.names tag⟩, fun a ha => absurd ha List.not_mem_nil⟩

theorem label?_createElement (h : t.Named) (tag : String) (n : NodeId) :
    (t.createElement tag).2.label? n =
      if n = (t.createElement tag).1 then some (.element tag [] none) else t.label? n := by
  rw [createElement_eq, label?_add, label?_withName h]
  have hname := NameTable.name_of_name? (NameTable.name?_intern_self t.names tag)
  simp only [Content.label, List.map_nil]
  rw [show (t.withName tag).names.name (t.names.intern tag).1 = tag from hname]

theorem parent?_createElement (tag : String) : (t.createElement tag).2.parent? = t.parent? :=
  parent?_add (t := t.withName tag)

theorem children_createElement (h : t.WellLinked) (tag : String) :
    (t.createElement tag).2.children = t.children :=
  (children_add (h.withName tag)).trans (children_withName h tag)

theorem WellLinked.createText (h : t.WellLinked) (s : String) : (t.createText s).2.WellLinked :=
  h.add (by simp)

theorem Named.createText (h : t.Named) (s : String) : (t.createText s).2.Named :=
  h.add (by simp)

theorem label?_createText (t : Tree) (s : String) (n : NodeId) :
    (t.createText s).2.label? n = if n = (t.createText s).1 then some (.text s) else t.label? n :=
  label?_add t (.text s) n

theorem parent?_createText (s : String) : (t.createText s).2.parent? = t.parent? := parent?_add

theorem children_createText (h : t.WellLinked) (s : String) :
    (t.createText s).2.children = t.children :=
  children_add h

/-! ## Attaching -/

theorem names_attach (t : Tree) (p c : NodeId) : (t.attach p c).names = t.names := by
  unfold attach
  cases (t.get? p).bind Node.lastChild <;> rfl

theorem element?_attach (t : Tree) (p c n : NodeId) : (t.attach p c).element? n = t.element? n := by
  rw [element?, element?, get?_attach]
  cases t.get? n <;> rfl

theorem Named.attach (h : t.Named) (p c : NodeId) : (t.attach p c).Named where
  tag := fun he => by
    rw [names_attach]
    exact h.tag (by rwa [element?_attach] at he)
  attributes := fun he => by
    rw [names_attach]
    exact h.attributes (by rwa [element?_attach] at he)

theorem label?_attach (t : Tree) (p c : NodeId) : (t.attach p c).label? = t.label? := by
  funext n
  rw [label?, label?, get?_attach, names_attach]
  cases t.get? n <;> rfl

/-! ## Changing an element -/

section Update

variable {f : Element → Element}

theorem get?_updateElement (t : Tree) (n : NodeId) (f : Element → Element) (m : NodeId) :
    (t.updateElement n f).2.get? m = (t.get? m).map fun node =>
      if m = n then { node with content := node.content.mapElement f } else node := by
  by_cases hm : m = n
  · subst m
    cases hn : t.get? n with
    | none => simp [updateElement, hn]
    | some node =>
      cases hcontent : node.content with
      | element e => simp [updateElement, hn, hcontent, get?_modify, Content.mapElement]
      | document =>
        simp only [updateElement, hn, hcontent, Content.mapElement, Option.map_some, if_true]
        rw [← hcontent]
      | text s =>
        simp only [updateElement, hn, hcontent, Content.mapElement, Option.map_some, if_true]
        rw [← hcontent]
  · rw [updateElement]
    cases t.get? n with
    | none => simp [hm]
    | some node => cases hcontent : node.content <;> simp [hcontent, get?_modify, hm]

theorem names_updateElement (t : Tree) (n : NodeId) (f : Element → Element) :
    (t.updateElement n f).2.names = t.names := by
  rw [updateElement]
  cases t.get? n with
  | none => rfl
  | some node =>
    dsimp only
    split <;> rfl

theorem updateElement_fst_of_element? (he : t.element? n = some e) (f : Element → Element) :
    (t.updateElement n f).1 = .ok () := by
  obtain ⟨node, hn, hcontent⟩ := element?_eq_some_iff.1 he
  simp [updateElement, hn, hcontent]

theorem sameLinks_updateElement (f : Element → Element) (m : NodeId) (node : Node) :
    SameLinks node
      (if m = n then { node with content := node.content.mapElement f } else node) := by
  split
  · refine ⟨rfl, rfl, rfl, rfl, rfl, ?_, ?_⟩
    · cases hcontent : node.content <;>
        simp [Node.canHaveChildren, Node.text?, hcontent, Content.mapElement]
    · cases hcontent : node.content <;> simp [Content.mapElement]
  · exact .refl node

theorem WellLinked.updateElement (h : t.WellLinked) (n : NodeId) (f : Element → Element) :
    (t.updateElement n f).2.WellLinked :=
  h.of_sameLinks (get?_updateElement t n f) fun m node _ => sameLinks_updateElement f m node

theorem parent?_updateElement (n : NodeId) (f : Element → Element) :
    (t.updateElement n f).2.parent? = t.parent? :=
  parent?_of_sameLinks (get?_updateElement t n f) fun m node _ => sameLinks_updateElement f m node

theorem children_updateElement (h : t.WellLinked) (n : NodeId) (f : Element → Element) :
    (t.updateElement n f).2.children = t.children :=
  children_of_sameLinks (get?_updateElement t n f)
    (fun m node _ => sameLinks_updateElement f m node) h

theorem element?_updateElement (t : Tree) (n : NodeId) (f : Element → Element) (m : NodeId) :
    (t.updateElement n f).2.element? m = (t.element? m).map fun e => if m = n then f e else e := by
  rw [element?, element?, get?_updateElement]
  cases t.get? m with
  | none => rfl
  | some node =>
    show Node.element? _ = (Node.element? node).map _
    split
    · cases hcontent : node.content <;> simp [Node.element?, hcontent, Content.mapElement]
    · simp

theorem Named.updateElement (h : t.Named)
    (hf : ∀ e, t.element? n = some e →
      (∃ s, t.names.name? (f e).name = some s) ∧
        ∀ a ∈ (f e).attributes, ∃ s, t.names.name? a.name = some s) :
    (t.updateElement n f).2.Named where
  tag := by
    intro m e' he'
    rw [element?_updateElement, Option.map_eq_some_iff] at he'
    obtain ⟨e, he, rfl⟩ := he'
    rw [names_updateElement]
    split
    · subst m
      exact (hf e he).1
    · exact h.tag he
  attributes := by
    intro m e' he'
    rw [element?_updateElement, Option.map_eq_some_iff] at he'
    obtain ⟨e, he, rfl⟩ := he'
    rw [names_updateElement]
    split
    · subst m
      exact (hf e he).2
    · exact h.attributes he

/-- Changing an element changes its label as `g` says and no other. -/
theorem label?_updateElement {g : Label → Label} (t : Tree)
    (hg : ∀ e, t.element? n = some e →
      (Content.element (f e)).label t.names = g ((Content.element e).label t.names))
    (hdocument : g .document = .document) (htext : ∀ s, g (.text s) = .text s) (m : NodeId) :
    (t.updateElement n f).2.label? m = if m = n then (t.label? m).map g else t.label? m := by
  rw [label?, label?, get?_updateElement, names_updateElement]
  cases hm : t.get? m with
  | none => simp
  | some node =>
    by_cases hmn : m = n
    · subst m
      simp only [if_true, Option.map_some, Option.some.injEq]
      cases hcontent : node.content with
      | document => exact hdocument.symm
      | text s => exact (htext s).symm
      | element e => exact hg e (element?_eq_some_iff.2 ⟨node, hm, hcontent⟩)
    · simp [hmn]

end Update

end Tree

end PageBuilder.Dom
