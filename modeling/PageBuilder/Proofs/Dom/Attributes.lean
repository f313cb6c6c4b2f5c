import PageBuilder.Proofs.Dom.Ids

/-!
# Attributes as a map in order

The attributes of an element are kept as a list of numbers and values, and numbers are given out for
the names of all elements together. Through any sequence of operations, the list shows what was
written to the element: each name at the place where it was first set, with the value that it was
last set to (`attributes_after`). Operations that are refused leave nothing in it, and neither do
those on other nodes.
-/

namespace PageBuilder.Dom

/-! ## Writing one value after another -/

section Writes

variable {name : String} {names : List String} {attributes : List (String × String)}

theorem map_fst_setNamed (name value : String) (attributes : List (String × String)) :
    (setNamed name value attributes).map (·.1) =
      if name ∈ attributes.map (·.1) then attributes.map (·.1)
      else attributes.map (·.1) ++ [name] := by
  induction attributes with
  | nil => simp [setNamed]
  | cons a attributes ih =>
    rw [setNamed]
    by_cases ha : a.1 = name
    · simp [ha]
    · simp only [ha, if_false, List.map_cons, ih, List.mem_cons, Ne.symm ha, false_or]
      split <;> rfl

/-- One more name leaves names apart, in whatever way they are compared, if it is not taken for one
that it is not. -/
theorem nodup_map_add_iff {f : String → String} (h : (names.map f).Nodup) :
    ((if name ∈ names then names else names ++ [name]).map f).Nodup ↔
      ∀ other ∈ names, f other = f name → other = name := by
  split
  · rename_i hmem
    refine iff_of_true h fun other hother heq => ?_
    exact List.inj_on_of_nodup_map h hother hmem heq
  · rename_i hmem
    rw [List.map_append, List.map_singleton, List.nodup_append]
    constructor
    · rintro ⟨-, -, hapart⟩ other hother heq
      exact absurd heq (hapart _ (List.mem_map_of_mem hother) _ (List.mem_singleton_self _))
    · intro hapart
      refine ⟨h, List.nodup_singleton _, ?_⟩
      intro a ha b hb heq
      obtain ⟨other, hother, rfl⟩ := List.mem_map.1 ha
      rw [List.mem_singleton] at hb
      exact hmem (hapart other hother (heq.trans hb) ▸ hother)

theorem nodup_map_setNamed_iff {f : String → String} (value : String)
    (h : ((attributes.map (·.1)).map f).Nodup) :
    (((setNamed name value attributes).map (·.1)).map f).Nodup ↔
      ∀ other ∈ attributes.map (·.1), f other = f name → other = name := by
  rw [map_fst_setNamed]
  exact nodup_map_add_iff h

theorem nodup_setNamed (name value : String) (h : (attributes.map (·.1)).Nodup) :
    ((setNamed name value attributes).map (·.1)).Nodup := by
  rw [← List.map_id (attributes.map (·.1))] at h
  rw [← List.map_id ((setNamed name value attributes).map (·.1)), nodup_map_setNamed_iff value h]
  exact fun _ _ heq => heq

/-- The value that was written last for a name. -/
def lastValue? (name : String) (writes : List (String × String)) : Option String :=
  writes.reverse.lookup name

/-- What writes come to: each name where it was first written, with the value that was written last
for it. -/
def settled (writes : List (String × String)) : List (String × String) :=
  (writes.map (·.1)).eraseDups.filterMap fun name => (lastValue? name writes).map (name, ·)

/-- Writes names and values into a list, one after another. -/
def writeAll (attributes writes : List (String × String)) : List (String × String) :=
  writes.foldl (fun attributes a => setNamed a.1 a.2 attributes) attributes

theorem writeAll_append (attributes writes more : List (String × String)) :
    writeAll attributes (writes ++ more) = writeAll (writeAll attributes writes) more :=
  List.foldl_append

theorem writeAll_singleton (attributes : List (String × String)) (a : String × String) :
    writeAll attributes [a] = setNamed a.1 a.2 attributes := rfl

theorem lookup_writeAll (writes : List (String × String)) (name : String) :
    (writeAll [] writes).lookup name = lastValue? name writes := by
  induction writes using List.reverseRecOn with
  | nil => rfl
  | append_singleton writes a ih =>
    have hlast : lastValue? name (writes ++ [a]) =
        if a.1 = name then some a.2 else lastValue? name writes := by
      rw [lastValue?, List.reverse_append, List.reverse_singleton, List.singleton_append,
        lookup_cons]
      rfl
    rw [writeAll_append, writeAll_singleton, lookup_setNamed, ih, hlast]

theorem map_fst_writeAll (writes : List (String × String)) :
    (writeAll [] writes).map (·.1) = (writes.map (·.1)).eraseDups := by
  induction writes using List.reverseRecOn with
  | nil => rfl
  | append_singleton writes a ih =>
    rw [writeAll_append, writeAll_singleton, map_fst_setNamed, ih, List.map_append,
      List.map_singleton, List.eraseDups_append]
    simp only [List.mem_eraseDups]
    by_cases ha : a.1 ∈ writes.map (·.1)
    · simp [List.removeAll, ha]
    · simp [List.removeAll, ha, List.eraseDups_cons]

theorem nodup_writeAll (writes : List (String × String)) :
    ((writeAll [] writes).map (·.1)).Nodup := by
  induction writes using List.reverseRecOn with
  | nil => exact List.nodup_nil
  | append_singleton writes a ih =>
    rw [writeAll_append, writeAll_singleton]
    exact nodup_setNamed a.1 a.2 ih

/-- Where no name is there twice, names and their values are all there is. -/
theorem filterMap_lookup_eq_self (h : (attributes.map (·.1)).Nodup) :
    ((attributes.map (·.1)).filterMap fun name => (attributes.lookup name).map (name, ·)) =
      attributes := by
  induction attributes with
  | nil => rfl
  | cons a attributes ih =>
    rw [List.map_cons, List.nodup_cons] at h
    have hrest : ∀ name ∈ attributes.map (·.1),
        ((a :: attributes).lookup name).map (name, ·) =
          (attributes.lookup name).map (name, ·) := by
      intro name hname
      rw [lookup_cons, if_neg]
      rintro rfl
      exact h.1 hname
    have hself : ((a :: attributes).lookup a.1).map (a.1, ·) = some a := by
      rw [lookup_cons, if_pos rfl, Option.map_some]
    rw [List.map_cons, List.filterMap_cons, hself, List.filterMap_congr hrest, ih h.2]

theorem writeAll_eq_settled (writes : List (String × String)) :
    writeAll [] writes = settled writes := by
  rw [← filterMap_lookup_eq_self (nodup_writeAll writes), map_fst_writeAll, settled]
  simp only [lookup_writeAll]

end Writes

/-! ## What operations write -/

/-- The attributes that a node shows by itself. -/
def Label.attributes : Label → List (String × String)
  | element _ attributes _ => attributes
  | document | text _ => []

/-- The name and the value that an operation is to write to a node. -/
def Operation.write? (n : NodeId) : Operation → Option (String × String)
  | setAttribute m name value => if m = n then some (name, value) else none
  | setId m value => if m = n then some ("id", value) else none
  | createElement _ | createText _ | append _ _ | setSelectedIndex _ _ => none

namespace Tree

variable {t : Tree} {n : NodeId} {e : Element}

/-- The name and the value that an operation writes to a node, unless it is refused. -/
def writesOf (t : Tree) (n : NodeId) (op : Operation) : List (String × String) :=
  if (op.run t).1 = .ok () then (op.write? n).toList else []

/-- The names and the values that operations write to a node, one after another. -/
def writes (t : Tree) (n : NodeId) : List Operation → List (String × String)
  | [] => []
  | op :: ops => t.writesOf n op ++ (op.run t).2.writes n ops

/-- The attributes that a node shows, none if it is no element. -/
def shownAttributes (t : Tree) (n : NodeId) : List (String × String) :=
  (t.label? n).elim [] Label.attributes

theorem shownAttributes_of_element? (he : t.element? n = some e) :
    t.shownAttributes n = t.namedAttributes e := by
  rw [shownAttributes, label?_of_element? he]
  rfl

theorem shownAttributes_of_element?_eq_none (he : t.element? n = none) :
    t.shownAttributes n = [] := by
  cases hl : t.label? n with
  | none => rw [shownAttributes, hl, Option.elim_none]
  | some l =>
    cases l with
    | document | text => rw [shownAttributes, hl, Option.elim_some, Label.attributes]
    | element tag attributes selectedIndex =>
      have hsome := isSome_element?_iff.2 ⟨tag, attributes, selectedIndex, hl⟩
      rw [he] at hsome
      cases hsome

theorem attribute?_eq_lookup (h : t.Named) (n : NodeId) (name : String) :
    t.attribute? n name = (t.shownAttributes n).lookup name := by
  cases he : t.element? n with
  | none =>
    rw [shownAttributes_of_element?_eq_none he, attribute?_of_element?_eq_none he, List.lookup_nil]
  | some e => rw [shownAttributes_of_element? he, h.attribute?_of_element? he]

/-- Elements are changed, and nothing else is. -/
theorem updateElement_fst_eq_ok_iff {f : Element → Element} :
    (t.updateElement n f).1 = .ok () ↔ (t.element? n).isSome := by
  cases he : t.element? n with
  | some e => simp [updateElement_fst_of_element? he]
  | none =>
    refine iff_of_false (fun hok => ?_) (by simp)
    rw [updateElement] at hok
    cases hn : t.get? n with
    | none =>
      rw [hn] at hok
      cases hok
    | some node =>
      cases hcontent : node.content with
      | element e =>
        rw [element?_eq_some_iff.2 ⟨node, hn, hcontent⟩] at he
        cases he
      | document | text =>
        simp only [hn, hcontent] at hok
        cases hok

/-- Setting an attribute writes to the element that it is for, and to no other node. -/
theorem shownAttributes_setAttribute (h : t.Named) (m : NodeId) (name value : String) :
    (t.setAttribute m name value).2.shownAttributes n = writeAll (t.shownAttributes n)
      (if (t.setAttribute m name value).1 = .ok () then
        (if m = n then some (name, value) else none).toList else []) := by
  have hok : (t.setAttribute m name value).1 = .ok () ↔ (t.element? m).isSome :=
    updateElement_fst_eq_ok_iff (t := t.withName name)
  rw [shownAttributes, shownAttributes, label?_setAttribute h]
  by_cases hmn : m = n
  · subst hmn
    rw [isSome_element?_iff] at hok
    cases hl : t.label? m with
    | none => simp [hok, hl, writeAll]
    | some l =>
      cases l with
      | document | text => simp [hok, hl, writeAll, Label.setAttribute, Label.attributes]
      | element tag attributes selectedIndex =>
        rw [if_pos rfl, if_pos (hok.2 ⟨_, _, _, hl⟩)]
        simp [writeAll, Label.setAttribute, Label.attributes]
  · rw [if_neg (Ne.symm hmn), if_neg hmn]
    split <;> rfl

/-- A new node shows no attributes, and neither did it before it was there. -/
theorem shownAttributes_of_new {t' : Tree} {l : Label} (hl : l.attributes = [])
    (hlabel : t'.label? n = if n = ⟨t.size⟩ then some l else t.label? n) :
    t'.shownAttributes n = t.shownAttributes n := by
  rw [shownAttributes, hlabel]
  split
  · rename_i hn
    have hmissing : t.label? n = none := by
      rw [hn]
      exact label?_eq_none_iff.2 (get?_eq_none_iff.2 (Nat.le_refl _))
    rw [shownAttributes, hmissing]
    exact hl
  · rfl

/-- What an operation writes to a node is written into the attributes that it shows. -/
theorem shownAttributes_run (h : t.WellFormed) (n : NodeId) (op : Operation) :
    (op.run t).2.shownAttributes n = writeAll (t.shownAttributes n) (t.writesOf n op) := by
  cases op with
  | createElement tag => exact shownAttributes_of_new rfl (label?_createElement h.toNamed tag n)
  | createText s => exact shownAttributes_of_new rfl (label?_createText t s n)
  | append p c =>
    show ((t.append p c).2.label? n).elim [] Label.attributes = _
    rw [writesOf, Operation.write?, Option.toList_none, ite_self, label?_append]
    rfl
  | setAttribute m name value => exact shownAttributes_setAttribute h.toNamed m name value
  | setId m value => exact shownAttributes_setAttribute h.toNamed m "id" value
  | setSelectedIndex m index =>
    show ((t.setSelectedIndex m index).2.label? n).elim [] Label.attributes = _
    rw [writesOf, Operation.write?, Option.toList_none, ite_self, label?_setSelectedIndex,
      shownAttributes]
    split
    · cases hl : t.label? n with
      | none => rfl
      | some l => cases l <;> rfl
    · rfl

/-- So it is for operations one after another. -/
theorem shownAttributes_after (h : t.WellFormed) (n : NodeId) (ops : List Operation) :
    (t.after ops).shownAttributes n = writeAll (t.shownAttributes n) (t.writes n ops) := by
  induction ops generalizing t with
  | nil => rfl
  | cons op ops ih =>
    calc ((op.run t).2.after ops).shownAttributes n
        = writeAll ((op.run t).2.shownAttributes n) ((op.run t).2.writes n ops) := ih (h.run op)
      _ = writeAll (writeAll (t.shownAttributes n) (t.writesOf n op))
            ((op.run t).2.writes n ops) := by rw [shownAttributes_run h]
      _ = writeAll (t.shownAttributes n) (t.writes n (op :: ops)) := (writeAll_append ..).symm

theorem shownAttributes_new (n : NodeId) : new.shownAttributes n = [] := by
  refine shownAttributes_of_element?_eq_none ?_
  cases he : new.element? n with
  | none => rfl
  | some e =>
    obtain ⟨node, hn, hcontent⟩ := element?_eq_some_iff.1 he
    obtain ⟨-, rfl⟩ := get?_new hn
    cases hcontent

/-- **Attributes are a map in the order in which they were first set.** After any operations on a
new tree, the value of a node's attribute is the one that was last written to the node for this
name. The attributes of an element, by their names, are what was written to it: each name once,
where it was first written, with the last value. -/
theorem attributes_after (ops : List Operation) (n : NodeId) :
    (∀ name, (new.after ops).attribute? n name = lastValue? name (new.writes n ops)) ∧
      ∀ e, (new.after ops).element? n = some e →
        (new.after ops).namedAttributes e = settled (new.writes n ops) ∧
        ((new.after ops).namedAttributes e).map (·.1) =
          ((new.writes n ops).map (·.1)).eraseDups ∧
        (((new.after ops).namedAttributes e).map (·.1)).Nodup := by
  have hshown : (new.after ops).shownAttributes n = writeAll [] (new.writes n ops) := by
    rw [shownAttributes_after wellFormed_new, shownAttributes_new]
  have hnamed : (new.after ops).Named := (Reachable.new.after ops).wellFormed.toNamed
  refine ⟨fun name => ?_, fun e he => ?_⟩
  · rw [attribute?_eq_lookup hnamed, hshown, lookup_writeAll]
  · rw [← shownAttributes_of_element? he, hshown]
    exact ⟨writeAll_eq_settled _, map_fst_writeAll _, nodup_writeAll _⟩

/-- Two paragraphs and a text whose attributes are set before they are there, over again, and where
there can be none. -/
def rewritten : List Operation :=
  [.setAttribute ⟨1⟩ "title" "a", .createElement "p", .createElement "p", .createText "b",
    .setAttribute ⟨1⟩ "class" "c", .setAttribute ⟨2⟩ "title" "d", .setId ⟨1⟩ "e",
    .append ⟨3⟩ ⟨1⟩, .setAttribute ⟨3⟩ "class" "f", .append ⟨1⟩ ⟨3⟩, .setAttribute ⟨1⟩ "class" "g"]

/-- The class stays in front of the id, and the title that was set too early is not there. -/
theorem attributes_after_rewritten :
    (new.after rewritten).attribute? ⟨1⟩ "class" = some "g" ∧
      (new.after rewritten).attribute? ⟨1⟩ "title" = none ∧
      ∃ e, (new.after rewritten).element? ⟨1⟩ = some e ∧
        (new.after rewritten).namedAttributes e = [("class", "g"), ("id", "e")] := by
  have hwrites : new.writes ⟨1⟩ rewritten = [("class", "c"), ("id", "e"), ("class", "g")] := by
    decide +kernel
  have hsome : ((new.after rewritten).element? ⟨1⟩).isSome := by decide +kernel
  obtain ⟨e, he⟩ := Option.isSome_iff_exists.1 hsome
  obtain ⟨hvalue, hlist⟩ := attributes_after rewritten ⟨1⟩
  rw [hwrites] at hvalue hlist
  exact ⟨hvalue "class", hvalue "title", e, he, (hlist e he).1⟩

end Tree

end PageBuilder.Dom
