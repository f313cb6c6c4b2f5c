import PageBuilder.Dom.Document
import PageBuilder.Proofs.Dom.Labels

/-!
# Operations

What each operation of a tree does, on a tree in good order (`WellFormed`): all links agree, and
every number of a name has a name.

* `append_of_attachable`, `append_of_not_attachable`: appending attaches a node where it may be
  attached, and changes nothing elsewhere.
* `label?_setAttribute`, `label?_setSelectedIndex`: only the label of one element changes.
* `WellFormed.run`: no operation, refused or not, puts a tree out of order.
-/

namespace PageBuilder.Dom

/-- Setting an attribute by its number is setting it by its name. -/
theorem map_withAttribute {names : NameTable} {name : String} {id : NameId}
    (hid : names.name? id = some name) (value : String) {attributes : List Attribute}
    (hnamed : ∀ a ∈ attributes, ∃ s, names.name? a.name = some s) :
    (Element.withAttribute id value attributes).map (fun a => (names.name a.name, a.value)) =
      setNamed name value (attributes.map fun a => (names.name a.name, a.value)) := by
  induction attributes with
  | nil => simp [Element.withAttribute, setNamed, NameTable.name_of_name? hid]
  | cons a rest ih =>
    obtain ⟨s, hs⟩ := hnamed a List.mem_cons_self
    have hiff : a.name = id ↔ names.name a.name = name := by
      rw [NameTable.name_of_name? hs]
      constructor
      · rintro rfl
        exact Option.some.inj (hs.symm.trans hid)
      · rintro rfl
        exact NameTable.eq_of_name?_eq hs hid
    have hrest := ih fun b hb => hnamed b (List.mem_cons_of_mem a hb)
    by_cases ha : a.name = id
    · simp [Element.withAttribute, setNamed, ha, NameTable.name_of_name? hid]
    · have ha' : names.name a.name ≠ name := fun h => ha (hiff.2 h)
      simp [Element.withAttribute, setNamed, ha, ha', hrest]

theorem mem_withAttribute {id : NameId} {value : String} {attributes : List Attribute}
    {a : Attribute} (ha : a ∈ Element.withAttribute id value attributes) :
    a.name = id ∨ a ∈ attributes := by
  fun_induction Element.withAttribute id value attributes with
  | case1 => exact .inl (by rw [List.mem_singleton.1 ha])
  | case2 b rest hb =>
    rcases List.mem_cons.1 ha with rfl | ha
    · exact .inl hb
    · exact .inr (List.mem_cons_of_mem b ha)
  | case3 b rest hb ih =>
    rcases List.mem_cons.1 ha with rfl | ha
    · exact .inr List.mem_cons_self
    · exact (ih ha).imp_right (List.mem_cons_of_mem b)

namespace Tree

variable {t : Tree} {n m p c : NodeId} {node : Node} {e : Element}

/-- A tree in good order: all links agree, and every number of a name has a name. -/
structure WellFormed (t : Tree) : Prop extends t.WellLinked, t.Named

/-! ## Setting attributes -/

/-- An element after an attribute was set; the `id` attribute is also kept apart. -/
def withAttribute (name : String) (id : NameId) (value : String) (e : Element) : Element :=
  (if name = "id" then { e with id := some value } else e).setAttribute id value

theorem name_withAttribute (name : String) (id : NameId) (value : String) (e : Element) :
    (withAttribute name id value e).name = e.name := by
  unfold withAttribute
  split <;> rfl

theorem selectedIndex_withAttribute (name : String) (id : NameId) (value : String) (e : Element) :
    (withAttribute name id value e).selectedIndex = e.selectedIndex := by
  unfold withAttribute
  split <;> rfl

theorem attributes_withAttribute (name : String) (id : NameId) (value : String) (e : Element) :
    (withAttribute name id value e).attributes =
      Element.withAttribute id value e.attributes := by
  unfold withAttribute
  split <;> rfl

theorem setAttribute_eq (t : Tree) (n : NodeId) (name value : String) :
    t.setAttribute n name value =
      (t.withName name).updateElement n (withAttribute name (t.names.intern name).1 value) := rfl

theorem setAttribute_fst_of_element? (he : t.element? n = some e) (name value : String) :
    (t.setAttribute n name value).1 = .ok () :=
  updateElement_fst_of_element? (t := t.withName name) he _

theorem WellLinked.setAttribute (h : t.WellLinked) (n : NodeId) (name value : String) :
    (t.setAttribute n name value).2.WellLinked :=
  (h.withName name).updateElement n _

theorem Named.setAttribute (h : t.Named) (n : NodeId) (name value : String) :
    (t.setAttribute n name value).2.Named := by
  rw [setAttribute_eq]
  refine (h.withName name).updateElement fun e he => ?_
  rw [name_withAttribute, attributes_withAttribute]
  refine ⟨(h.withName name).tag he, fun a ha => ?_⟩
  rcases mem_withAttribute ha with ha | ha
  · exact ⟨name, by rw [ha]; exact NameTable.name?_intern_self t.names name⟩
  · exact (h.withName name).attributes he a ha

theorem label?_setAttribute (h : t.Named) (n : NodeId) (name value : String) (m : NodeId) :
    (t.setAttribute n name value).2.label? m =
      if m = n then (t.label? m).map (Label.setAttribute name value) else t.label? m := by
  rw [setAttribute_eq, label?_updateElement (g := Label.setAttribute name value), label?_withName h]
  · intro e he
    have hid : (t.withName name).names.name? (t.names.intern name).1 = some name :=
      NameTable.name?_intern_self t.names name
    simp only [Content.label, Label.setAttribute, name_withAttribute, selectedIndex_withAttribute,
      attributes_withAttribute, map_withAttribute hid value ((h.withName name).attributes he)]
  · rfl
  · exact fun _ => rfl

theorem parent?_setAttribute (n : NodeId) (name value : String) :
    (t.setAttribute n name value).2.parent? = t.parent? :=
  parent?_updateElement (t := t.withName name) n _

theorem children_setAttribute (h : t.WellLinked) (n : NodeId) (name value : String) :
    (t.setAttribute n name value).2.children = t.children :=
  (children_updateElement (h.withName name) n _).trans (children_withName h name)

/-! ## Setting the selected index -/

theorem setSelectedIndex_fst_of_element? (he : t.element? n = some e) (index : ℕ) :
    (t.setSelectedIndex n index).1 = .ok () :=
  updateElement_fst_of_element? he _

theorem WellLinked.setSelectedIndex (h : t.WellLinked) (n : NodeId) (index : ℕ) :
    (t.setSelectedIndex n index).2.WellLinked :=
  h.updateElement n _

theorem Named.setSelectedIndex (h : t.Named) (n : NodeId) (index : ℕ) :
    (t.setSelectedIndex n index).2.Named := by
  refine h.updateElement fun e he => ?_
  exact ⟨h.tag (e := e) he, h.attributes (e := e) he⟩

theorem label?_setSelectedIndex (t : Tree) (n : NodeId) (index : ℕ) (m : NodeId) :
    (t.setSelectedIndex n index).2.label? m =
      if m = n then (t.label? m).map (Label.setSelectedIndex index) else t.label? m :=
  label?_updateElement t (fun _ _ => rfl) rfl (fun _ => rfl) m

theorem children_setSelectedIndex (h : t.WellLinked) (n : NodeId) (index : ℕ) :
    (t.setSelectedIndex n index).2.children = t.children :=
  children_updateElement h n _

/-! ## Appending -/

/-- An append attaches the node or leaves the tree alone. -/
theorem append_snd_eq (t : Tree) (p c : NodeId) :
    (t.append p c).2 = t ∨ (t.append p c).2 = t.attach p c := by
  rw [append]
  split
  · exact .inl rfl
  · exact .inl rfl
  · split
    · exact .inl rfl
    · exact .inr rfl

theorem names_append (t : Tree) (p c : NodeId) : (t.append p c).2.names = t.names := by
  rcases t.append_snd_eq p c with happend | happend
  · rw [happend]
  · rw [happend, names_attach]

/-- No label changes by an append. -/
theorem label?_append (t : Tree) (p c : NodeId) : (t.append p c).2.label? = t.label? := by
  rcases t.append_snd_eq p c with happend | happend
  · rw [happend]
  · rw [happend, label?_attach]

/-- An append does not touch the contents of nodes. -/
theorem element?_append (t : Tree) (p c n : NodeId) :
    (t.append p c).2.element? n = t.element? n := by
  rcases t.append_snd_eq p c with happend | happend
  · rw [happend]
  · rw [happend, element?_attach]

theorem append_of_attachable (h : t.WellLinked) (hc : t.Attachable p c) :
    t.append p c = (.ok c, t.attach p c) := by
  obtain ⟨pnode, hp, hcontainer⟩ := hc.parent
  obtain ⟨cnode, hcnode, hdetached⟩ := hc.child
  have hancestor : t.isAncestor c p = false :=
    Bool.eq_false_iff.2 (mt h.grounded.isAncestor_iff.1 hc.not_above)
  simp [append, hp, hcnode, hcontainer, hdetached, hancestor, hc.ne, hc.ne_root]

/-- An append that is refused leaves the tree as it was. -/
theorem append_of_not_attachable (h : t.WellLinked) (hc : ¬ t.Attachable p c) :
    ∃ e, t.append p c = (.error e, t) := by
  unfold append
  cases hp : t.get? p with
  | none => exact ⟨_, rfl⟩
  | some pnode =>
    cases hcnode : t.get? c with
    | none => exact ⟨_, rfl⟩
    | some cnode =>
      dsimp only
      split
      · exact ⟨_, rfl⟩
      · rename_i hchecks
        simp only [Bool.or_eq_true, Bool.not_eq_true', beq_iff_eq, not_or, Bool.not_eq_false,
          Bool.not_eq_true, Option.isSome_eq_false_iff, Option.isNone_iff_eq_none] at hchecks
        obtain ⟨⟨⟨⟨hcontainer, hne⟩, hroot⟩, hparent⟩, hancestor⟩ := hchecks
        exact absurd
          { parent := ⟨pnode, hp, hcontainer⟩, child := ⟨cnode, hcnode, hparent⟩, ne := hne,
            ne_root := hroot,
            not_above := fun ha => Bool.eq_false_iff.1 hancestor (h.grounded.isAncestor_iff.2 ha) }
          hc

theorem WellFormed.attach (h : t.WellFormed) (hc : t.Attachable p c) : (t.attach p c).WellFormed :=
  ⟨h.toWellLinked.attach hc, h.toNamed.attach p c⟩

theorem WellFormed.append (h : t.WellFormed) (p c : NodeId) : (t.append p c).2.WellFormed := by
  by_cases hc : t.Attachable p c
  · rw [append_of_attachable h.toWellLinked hc]
    exact h.attach hc
  · obtain ⟨e, he⟩ := append_of_not_attachable h.toWellLinked hc
    rw [he]
    exact h

/-! ## Any operation -/

theorem WellFormed.createElement (h : t.WellFormed) (tag : String) :
    (t.createElement tag).2.WellFormed :=
  ⟨h.toWellLinked.createElement tag, h.toNamed.createElement tag⟩

theorem WellFormed.createText (h : t.WellFormed) (s : String) : (t.createText s).2.WellFormed :=
  ⟨h.toWellLinked.createText s, h.toNamed.createText s⟩

theorem WellFormed.setAttribute (h : t.WellFormed) (n : NodeId) (name value : String) :
    (t.setAttribute n name value).2.WellFormed :=
  ⟨h.toWellLinked.setAttribute n name value, h.toNamed.setAttribute n name value⟩

theorem WellFormed.setSelectedIndex (h : t.WellFormed) (n : NodeId) (index : ℕ) :
    (t.setSelectedIndex n index).2.WellFormed :=
  ⟨h.toWellLinked.setSelectedIndex n index, h.toNamed.setSelectedIndex n index⟩

/-- **No operation puts a tree out of order**, whether it is refused or not. -/
theorem WellFormed.run (h : t.WellFormed) (op : Operation) : (op.run t).2.WellFormed := by
  cases op with
  | createElement tag => exact h.createElement tag
  | createText s => exact h.createText s
  | append parent child => exact h.append parent child
  | setAttribute n name value => exact h.setAttribute n name value
  | setId n value => exact h.setAttribute n "id" value
  | setSelectedIndex n index => exact h.setSelectedIndex n index

end Tree

end PageBuilder.Dom
