import PageBuilder.Proofs.Dom.Histories

/-!
# What refused operations leave

One would expect an operation that is refused to leave no trace. Appending and selecting look before
they change anything, and so they do leave none. Setting an attribute numbers the name before it
looks at the node, and a name that is new stays in the table even if there is no such element
(`setAttribute_missing_ne`). `run_eq_self_iff_of_error` says that this is the only trace there is.
-/

namespace PageBuilder.Dom

/-- The name of the attribute that an operation sets. -/
def Operation.attributeName? : Operation → Option String
  | setAttribute _ name _ => some name
  | setId _ _ => some "id"
  | createElement _ | createText _ | append _ _ | setSelectedIndex _ _ => none

namespace Tree

variable {t : Tree} {n p c : NodeId} {e : TreeError}

theorem append_of_error (h : (t.append p c).1 = .error e) : (t.append p c).2 = t := by
  unfold append at h ⊢
  split
  · rfl
  · rfl
  · split
    · rfl
    · rename_i hp hc hchecks
      simp only [hp, hc, if_neg hchecks] at h
      cases h

theorem updateElement_of_error {f : Element → Element}
    (h : (t.updateElement n f).1 = .error e) : (t.updateElement n f).2 = t := by
  cases hn : t.element? n with
  | some element =>
    rw [updateElement_fst_of_element? hn] at h
    cases h
  | none =>
    rw [updateElement]
    cases hnode : t.get? n with
    | none => rfl
    | some node =>
      cases hcontent : node.content with
      | element element =>
        rw [element?_eq_some_iff.2 ⟨node, hnode, hcontent⟩] at hn
        cases hn
      | document | text => simp only [hcontent]

/-- A refused operation has met the name of the attribute that it was to set, and done nothing
else. -/
theorem run_of_error {op : Operation} (h : (op.run t).1 = .error e) :
    (op.run t).2 = op.attributeName?.elim t t.withName := by
  cases op with
  | createElement | createText => cases h
  | append p c =>
    replace h : (t.append p c).1.map (fun _ => ()) = .error e := h
    cases hresult : (t.append p c).1 with
    | error e' => exact append_of_error hresult
    | ok appended =>
      rw [hresult] at h
      cases h
  | setAttribute n name value => exact updateElement_of_error h
  | setId n value => exact updateElement_of_error h
  | setSelectedIndex n index => exact updateElement_of_error h

/-- A tree that has met one more name is reached as well: by setting an attribute of that name where
there is no node. -/
theorem Reachable.withName (h : t.Reachable) (name : String) : (t.withName name).Reachable := by
  have hmissing : t.get? ⟨t.size⟩ = none := Array.getElem?_eq_none (Nat.le_refl _)
  have herror : ((Operation.setAttribute ⟨t.size⟩ name "").run t).1 =
      .error (.notFound ⟨t.size⟩) := by
    show ((t.withName name).updateElement ⟨t.size⟩ _).1 = _
    rw [updateElement, show (t.withName name).get? ⟨t.size⟩ = none from hmissing]
  have hrun := h.run (.setAttribute ⟨t.size⟩ name "")
  rwa [run_of_error herror] at hrun

/-! ## Meeting a name that is known -/

theorem withName_of_mem {name : String} (h : name ∈ t.names.names) : t.withName name = t := by
  obtain ⟨id, hid⟩ : ∃ id, t.names.find? name = some id := by
    by_contra hnone
    exact NameTable.find?_eq_none_iff.1 (Option.eq_none_iff_forall_not_mem.2
      fun id hid => hnone ⟨id, hid⟩) h
  rw [withName, NameTable.intern_of_find?_eq_some hid]

/-- A name that is new comes in at the end of the table. -/
theorem names_withName_of_not_mem {name : String} (h : name ∉ t.names.names) :
    (t.withName name).names.names = t.names.names.push name := by
  rw [withName, NameTable.intern_of_find?_eq_none (NameTable.find?_eq_none_iff.2 h)]
  rfl

theorem withName_eq_self_iff {name : String} : t.withName name = t ↔ name ∈ t.names.names := by
  refine ⟨fun heq => ?_, withName_of_mem⟩
  by_contra hnew
  have hsize := congrArg (fun t : Tree => t.names.names.size) heq
  simp only [names_withName_of_not_mem hnew, Array.size_push] at hsize
  omega

/-! ## Refused operations -/

/-- Every tree knows the name that `setId` asks for. -/
theorem Reachable.id_mem_names (ht : t.Reachable) : "id" ∈ t.names.names :=
  Array.mem_of_getElem? ht.name?_id

/-- **The only trace of a refused operation is the name of an attribute.** The nodes are as they
were, and so are the names, unless an attribute with a new name was to be set: then this name is the
last one in the table. -/
theorem run_eq_self_iff_of_error (ht : t.Reachable) {op : Operation}
    (h : (op.run t).1 = .error e) :
    (op.run t).2.nodes = t.nodes ∧
      ((op.run t).2 = t ↔ ∀ n name value, op = .setAttribute n name value → name ∈ t.names.names) ∧
      ∀ n name value, op = .setAttribute n name value → name ∉ t.names.names →
        (op.run t).2.names.names = t.names.names.push name := by
  rw [run_of_error h]
  cases op with
  | createElement | createText => cases h
  | append | setSelectedIndex =>
    refine ⟨rfl, iff_of_true rfl ?_, ?_⟩
    · rintro _ _ _ ⟨⟩
    · rintro _ _ _ ⟨⟩
  | setId n value =>
    refine ⟨rfl, iff_of_true (withName_of_mem ht.id_mem_names) ?_, ?_⟩
    · rintro _ _ _ ⟨⟩
    · rintro _ _ _ ⟨⟩
  | setAttribute n name value =>
    refine ⟨rfl, withName_eq_self_iff.trans ⟨?_, fun hall => hall n name value rfl⟩, ?_⟩
    · rintro hmem _ _ _ ⟨⟩
      exact hmem
    · rintro _ _ _ ⟨⟩ hnew
      exact names_withName_of_not_mem hnew

/-- An attribute with a known name is refused for a text, and so is one with a new name. -/
theorem run_eq_self_iff_of_error_text :
    (new.after [.createText "a"]).Reachable ∧
      ((Operation.setAttribute ⟨1⟩ "href" "b").run (new.after [.createText "a"])).1 =
        .error (.notAnElement ⟨1⟩) ∧
      ((Operation.setAttribute ⟨1⟩ "href" "b").run (new.after [.createText "a"])).2 =
        new.after [.createText "a"] ∧
      ((Operation.setAttribute ⟨1⟩ "rel" "b").run (new.after [.createText "a"])).1 =
        .error (.notAnElement ⟨1⟩) ∧
      ((Operation.setAttribute ⟨1⟩ "rel" "b").run (new.after [.createText "a"])).2 ≠
        new.after [.createText "a"] := by
  have ht : (new.after [.createText "a"]).Reachable := Reachable.new.after _
  have hknown : ((Operation.setAttribute ⟨1⟩ "href" "b").run (new.after [.createText "a"])).1 =
      .error (.notAnElement ⟨1⟩) := by decide +kernel
  have hnew : ((Operation.setAttribute ⟨1⟩ "rel" "b").run (new.after [.createText "a"])).1 =
      .error (.notAnElement ⟨1⟩) := by decide +kernel
  have hhref : "href" ∈ (new.after [.createText "a"]).names.names := by decide +kernel
  have hrel : "rel" ∉ (new.after [.createText "a"]).names.names := by decide +kernel
  refine ⟨ht, hknown, (run_eq_self_iff_of_error ht hknown).2.1.2 ?_, hnew, fun heq => ?_⟩
  · rintro _ _ _ ⟨⟩
    exact hhref
  · exact hrel ((run_eq_self_iff_of_error ht hnew).2.1.1 heq ⟨1⟩ "rel" "b" rfl)

/-- Not every refused operation leaves the tree as it was: a new tree has no fifth node, yet it
keeps the name of the attribute that the node was to get. -/
theorem setAttribute_missing_ne :
    new.Reachable ∧ (new.setAttribute ⟨5⟩ "data-x" "1").1 = .error (.notFound ⟨5⟩) ∧
      new.names.find? "data-x" = none ∧
      (new.setAttribute ⟨5⟩ "data-x" "1").2.names.find? "data-x" = some ⟨27⟩ ∧
      (new.setAttribute ⟨5⟩ "data-x" "1").2 ≠ new :=
  ⟨Reachable.new, by decide +kernel⟩

end Tree

end PageBuilder.Dom
