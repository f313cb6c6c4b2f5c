import PageBuilder.Proofs.Dom.Histories
import PageBuilder.Proofs.Dom.Views

/-!
# Ids

An element's id is kept apart from its attributes, for look-ups. In every tree that operations lead
to, it is the value of the attribute (`Reachable.idsAgree`), which an element's view shows. The
value of any attribute is the one that the view shows (`WellFormed.attribute?_of_view`).
-/

namespace PageBuilder.Dom

/-- Of all values, setting one changes that of its name alone. -/
theorem lookup_setNamed (name value : String) (attributes : List (String × String))
    (other : String) :
    (setNamed name value attributes).lookup other =
      if name = other then some value else attributes.lookup other := by
  induction attributes with
  | nil => exact lookup_cons (name, value) [] other
  | cons a attributes ih =>
    rw [setNamed, lookup_cons a]
    by_cases ha : a.1 = name
    · rw [if_pos ha, lookup_cons, ha]
      split <;> rfl
    · rw [if_neg ha, lookup_cons, ih]
      by_cases hname : name = other
      · rw [if_pos hname, if_pos hname, if_neg (hname ▸ ha)]
      · rw [if_neg hname, if_neg hname]

/-- The id that a node shows, if it is an element that has one. -/
def Rose.id? : Rose → Option String
  | element _ attributes _ _ => attributes.lookup "id"
  | _ => none

/-- The value that a node shows for an attribute, if it is an element that has it. -/
def Rose.attribute? (name : String) : Rose → Option String
  | element _ attributes _ _ => attributes.lookup name
  | _ => none

namespace Tree

variable {t : Tree} {n : NodeId} {e : Element}

/-- The ids that are kept are those that the attributes give. -/
def IdsAgree (t : Tree) : Prop :=
  ∀ {n tag attributes selectedIndex}, t.label? n = some (.element tag attributes selectedIndex) →
    (t.element? n).bind Element.id = attributes.lookup "id"

theorem element?_add (t : Tree) (content : Content) (n : NodeId) :
    (t.add content).2.element? n =
      if n = (t.add content).1 then Node.element? { content } else t.element? n := by
  rw [element?, get?_add]
  split <;> rfl

theorem element?_createElement (t : Tree) (tag : String) (n : NodeId) :
    (t.createElement tag).2.element? n =
      if n = (t.createElement tag).1 then some { name := (t.names.intern tag).1 }
      else t.element? n :=
  element?_add (t.withName tag) _ n

theorem element?_createText (t : Tree) (s : String) (n : NodeId) :
    (t.createText s).2.element? n = if n = (t.createText s).1 then none else t.element? n :=
  element?_add t (.text s) n

theorem idsAgree_new : new.IdsAgree := by
  intro n tag attributes selectedIndex hl
  obtain ⟨node, hn, hlabel⟩ := Option.map_eq_some_iff.1 hl
  obtain ⟨-, rfl⟩ := get?_new hn
  cases hlabel

namespace IdsAgree

variable (h : t.IdsAgree)
include h

theorem createElement (hnamed : t.Named) (tag : String) : (t.createElement tag).2.IdsAgree := by
  intro n tag' attributes selectedIndex hl
  rw [label?_createElement hnamed] at hl
  rw [element?_createElement]
  split at hl
  · rename_i hn
    cases hl
    rw [if_pos hn]
    rfl
  · rename_i hn
    rw [if_neg hn]
    exact h hl

theorem createText (s : String) : (t.createText s).2.IdsAgree := by
  intro n tag attributes selectedIndex hl
  rw [label?_createText] at hl
  rw [element?_createText]
  split at hl
  · cases hl
  · rename_i hn
    rw [if_neg hn]
    exact h hl

theorem append (p c : NodeId) : (t.append p c).2.IdsAgree := by
  intro n tag attributes selectedIndex hl
  rw [label?_append] at hl
  rw [element?_append]
  exact h hl

theorem setAttribute (hnamed : t.Named) (n : NodeId) (name value : String) :
    (t.setAttribute n name value).2.IdsAgree := by
  intro m tag attributes selectedIndex hl
  rw [label?_setAttribute hnamed] at hl
  rw [setAttribute_eq, element?_updateElement]
  split at hl
  · rename_i hm
    obtain ⟨l, hl, hset⟩ := Option.map_eq_some_iff.1 hl
    cases l with
    | document | text => cases hset
    | element tag' attributes' selectedIndex' =>
      cases hset
      obtain ⟨e, he⟩ := Option.isSome_iff_exists.1 (isSome_element?_iff.2 ⟨_, _, _, hl⟩)
      have hid := h hl
      rw [he, Option.bind_some] at hid
      rw [show (t.withName name).element? m = some e from he, lookup_setNamed, ← hid]
      simp only [Option.map_some, Option.bind_some, hm, if_true, withAttribute]
      split <;> rfl
  · rename_i hm
    simp only [if_neg hm, Option.map_id']
    exact h hl

theorem setSelectedIndex (n : NodeId) (index : ℕ) : (t.setSelectedIndex n index).2.IdsAgree := by
  intro m tag attributes selectedIndex hl
  rw [label?_setSelectedIndex] at hl
  rw [Tree.setSelectedIndex, element?_updateElement]
  have hid : ∀ {e : Option Element}, (e.map fun e =>
      if m = n then { e with selectedIndex := some index } else e).bind Element.id =
        e.bind Element.id := by
    intro e
    cases e with
    | none => rfl
    | some e => simp only [Option.map_some, Option.bind_some]; split <;> rfl
  rw [hid]
  split at hl
  · obtain ⟨l, hl', hset⟩ := Option.map_eq_some_iff.1 hl
    cases l with
    | document | text => cases hset
    | element tag' attributes' selectedIndex' =>
      cases hset
      exact h hl'
  · exact h hl

theorem run (hwf : t.WellFormed) (op : Operation) : (op.run t).2.IdsAgree := by
  cases op with
  | createElement tag => exact h.createElement hwf.toNamed tag
  | createText s => exact h.createText s
  | append p c => exact h.append p c
  | setAttribute n name value => exact h.setAttribute hwf.toNamed n name value
  | setId n value => exact h.setAttribute hwf.toNamed n "id" value
  | setSelectedIndex n index => exact h.setSelectedIndex n index

end IdsAgree

/-- **In every tree that operations lead to, ids are kept as the attributes give them.** -/
theorem Reachable.idsAgree (h : t.Reachable) : t.IdsAgree := by
  induction h with
  | new => exact idsAgree_new
  | run op ht ih => exact ih.run ht.wellFormed op

/-- Looking for an element by its kept id is looking by its attribute. -/
theorem Reachable.id_eq_attribute? (h : t.Reachable) (n : NodeId) :
    (t.element? n).bind Element.id = t.attribute? n "id" := by
  cases he : t.element? n with
  | none =>
    rw [attribute?_of_element?_eq_none he]
    rfl
  | some e =>
    rw [h.wellFormed.toNamed.attribute?_of_element? he, ← he]
    exact h.idsAgree (label?_of_element? he)

/-! ## Values of attributes -/

/-- The value of an attribute is the one that the view gives. -/
theorem WellFormed.attribute?_of_view (h : t.WellFormed) {r : Rose} (hr : t.view n = some r)
    (name : String) : t.attribute? n name = r.attribute? name := by
  obtain ⟨node, hn, rfl⟩ := h.toWellLinked.exists_get?_of_view hr
  cases hcontent : node.content with
  | element e =>
    have he : t.element? n = some e := element?_eq_some_iff.2 ⟨node, hn, hcontent⟩
    exact h.toNamed.attribute?_of_element? he name
  | document | text =>
    have hnone : t.element? n = none := by
      rw [element?, hn, Option.bind_some, Node.element?, hcontent]
    exact attribute?_of_element?_eq_none hnone name

/-- The id that is kept is the one that the view shows. -/
theorem Reachable.id_eq_of_view (h : t.Reachable) {r : Rose} (hr : t.view n = some r) :
    (t.element? n).bind Element.id = r.id? := by
  rw [h.id_eq_attribute?, h.wellFormed.attribute?_of_view hr]
  cases r <;> rfl

end Tree

end PageBuilder.Dom
