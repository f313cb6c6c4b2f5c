import PageBuilder.Markup.Render
import PageBuilder.Proofs.Dom.Histories
import PageBuilder.Proofs.Dom.Recursions

/-!
# Every walk ends

Nothing in a node keeps its links from running in a circle, and no walk keeps a record of where it
has been. That they end all the same is due to the links of a tree that came about by operations
(`Tree.Built`): the way up is shorter than the tree has nodes, siblings are linked one by one, and a
walk down calls itself for children only (`walks_end`).

The walks of the tree and of the markup are bounded by its number of nodes. `textBody`, `searchBody`
and `renderBody` are the same functions without a bound, as bodies of recursions.
-/

namespace PageBuilder.Dom.Tree

open Recursion

variable {t : Tree} {n : NodeId}

/-! ## Up and along -/

/-- The way up from a node, which is shorter than the tree has nodes. -/
theorem WellLinked.exists_way_up (h : t.WellLinked) (n : NodeId) :
    ∃ above, t.Leads Node.parent (t.parent? n) above none ∧ above.length ≤ t.depth n ∧
      ∀ a, a ∈ above ↔ t.Above a n := by
  induction hk : t.depth n using Nat.strong_induction_on generalizing n with
  | _ k ih =>
    cases hp : t.parent? n with
    | none =>
      exact ⟨[], rfl, Nat.zero_le _, fun a =>
        iff_of_false List.not_mem_nil (not_above_of_parent?_eq_none hp)⟩
    | some p =>
      have hdeeper := h.grounded.depth_lt_depth hp
      obtain ⟨above, hleads, hlength, hmem⟩ := ih _ (hk ▸ hdeeper) p rfl
      obtain ⟨node, hnode⟩ := Option.isSome_iff_exists.1 (get?_isSome_iff.2 (h.parent_lt hp))
      rw [parent?_of_get? hnode] at hleads
      refine ⟨p :: above, ⟨rfl, node, hnode, hleads⟩, ?_, fun a => ?_⟩
      · rw [List.length_cons]
        omega
      · rw [List.mem_cons, hmem, above_iff (n := n), hp]
        simp

theorem WellLinked.leads_children (h : t.WellLinked) (n : NodeId) :
    t.Leads Node.next ((t.get? n).bind Node.firstChild) (t.children n) none := by
  cases hn : t.get? n with
  | none =>
    rw [children_of_get?_eq_none hn]
    rfl
  | some node => exact (h.hasChildren_children hn).forward

/-! ## Texts -/

/-- The text at and below a node: that of a text, or those of all children in a row. -/
def textBody (t : Tree) (n : NodeId) : Recursion NodeId String :=
  match (t.get? n).bind Node.text? with
  | some s => .done s
  | none => callAll (t.children n) fun texts => .done (String.join texts)

theorem textWithin_eq_within (t : Tree) (levels : ℕ) (n : NodeId) :
    t.textWithin levels n = within t.textBody "" levels n := by
  induction levels generalizing n with
  | zero => rfl
  | succ levels ih =>
    rw [textWithin, within, textBody]
    cases (t.get? n).bind Node.text? with
    | some s => rfl
    | none =>
      simp only [eval_callAll, eval]
      rw [List.map_congr_left fun c _ => ih c]

theorem descends_textBody (t : Tree) : t.Descends (fun c => c) t.textBody := by
  intro f n
  rw [textBody, List.map_id']
  cases (t.get? n).bind Node.text? with
  | some s => exact List.nil_sublist _
  | none => simp [calls]

/-! ## Searches -/

/-- The first of some nodes that carries an id or has one below it that does. -/
def searchAll (t : Tree) (id : String) : List NodeId → Recursion NodeId (Option NodeId)
  | [] => .done none
  | c :: rest =>
    if (t.element? c).bind Element.id = some id then .done (some c)
    else .call c fun
      | some found => .done (some found)
      | none => t.searchAll id rest

/-- The first element below a node that carries an id. -/
def searchBody (t : Tree) (id : String) (n : NodeId) : Recursion NodeId (Option NodeId) :=
  t.searchAll id (t.children n)

theorem eval_searchAll (t : Tree) (id : String) (f : NodeId → Option NodeId) (cs : List NodeId) :
    (t.searchAll id cs).eval f =
      cs.findSome? fun c => if (t.element? c).bind Element.id = some id then some c else f c := by
  induction cs with
  | nil => rfl
  | cons c cs ih =>
    rw [searchAll, List.findSome?_cons]
    by_cases hid : (t.element? c).bind Element.id = some id
    · simp only [if_pos hid, eval]
    · simp only [if_neg hid, eval]
      cases hf : f c with
      | some found => rfl
      | none => exact ih

theorem calls_searchAll_sublist (t : Tree) (id : String) (f : NodeId → Option NodeId)
    (cs : List NodeId) : ((t.searchAll id cs).calls f).Sublist cs := by
  induction cs with
  | nil => exact .slnil
  | cons c cs ih =>
    rw [searchAll]
    split
    · exact List.nil_sublist _
    · rw [calls]
      cases f c with
      | some found => exact .cons_cons c (List.nil_sublist _)
      | none => exact .cons_cons c ih

theorem findId_eq_within (t : Tree) (id : String) (levels : ℕ) (n : NodeId) :
    t.findId id levels n = within (t.searchBody id) none levels n := by
  induction levels generalizing n with
  | zero => rfl
  | succ levels ih =>
    rw [findId, within, searchBody, eval_searchAll]
    simp only [ih]

theorem descends_searchBody (t : Tree) (id : String) :
    t.Descends (fun c => c) (t.searchBody id) := by
  intro f n
  rw [List.map_id']
  exact t.calls_searchAll_sublist id f (t.children n)

end PageBuilder.Dom.Tree

namespace PageBuilder.Markup

open Dom Dom.Recursion

variable {t : Tree}

/-! ## Markup -/

/-- What the rendering of a node depends on. -/
structure Rendering where
  depth : ℕ
  selected : Bool
  node : NodeId

/-- A node's markup: its start tag, its content and its end tag. -/
def renderBody (layout : Layout) (t : Tree) (r : Rendering) : Recursion Rendering String :=
  match (t.get? r.node).map Node.content with
  | none => .done ""
  | some .document =>
    callAll ((t.children r.node).map fun c => ⟨r.depth, false, c⟩) fun parts =>
      .done (String.join parts)
  | some (.text s) => .done (escapeText s)
  | some (.element e) =>
    let tag := t.names.name e.name
    let start := (if r.depth = 0 then "" else layout.lineBreak r.depth) ++
      startTag t.names e r.selected
    let ending := if t.hasElementChild r.node then layout.lineBreak r.depth else ""
    if voidTags.contains tag then .done start
    else if rawTags.contains tag then
      .done (start ++ rawContent t r.node ++ ending ++ endTag tag)
    else
      callAll ((markSelected t e.selectedIndex (t.children r.node)).map fun (c, selected) =>
          ⟨r.depth + 1, selected, c⟩) fun parts =>
        .done (start ++ String.join parts ++ ending ++ endTag tag)

theorem map_fst_markSelected (t : Tree) (mark : Option ℕ) (cs : List NodeId) :
    (markSelected t mark cs).map Prod.fst = cs := by
  fun_induction markSelected t mark cs <;> simp_all

theorem renderWithin_eq_within (layout : Layout) (t : Tree) (levels depth : ℕ) (selected : Bool)
    (n : NodeId) :
    renderWithin layout t levels depth selected n =
      within (renderBody layout t) "" levels ⟨depth, selected, n⟩ := by
  induction levels generalizing depth selected n with
  | zero => rfl
  | succ levels ih =>
    rw [renderWithin, within, renderBody]
    match (t.get? n).map Node.content with
    | none => rfl
    | some .document => simp [eval, ih, Function.comp_def]
    | some (.text s) => rfl
    | some (.element e) =>
      dsimp only
      by_cases hvoid : voidTags.contains (t.names.name e.name) = true
      · rw [if_pos hvoid, if_pos hvoid, eval]
      rw [if_neg hvoid, if_neg hvoid]
      by_cases hraw : rawTags.contains (t.names.name e.name) = true
      · rw [if_pos hraw, if_pos hraw, eval]
      · rw [if_neg hraw, if_neg hraw, eval_callAll, eval, List.map_map]
        simp only [ih]
        rfl

theorem descends_renderBody (layout : Layout) (t : Tree) :
    t.Descends Rendering.node (renderBody layout t) := by
  intro f r
  rw [renderBody]
  match (t.get? r.node).map Node.content with
  | none => exact List.nil_sublist _
  | some .document => simp [calls, Function.comp_def]
  | some (.text s) => exact List.nil_sublist _
  | some (.element e) =>
    have hmarked := map_fst_markSelected t e.selectedIndex (t.children r.node)
    dsimp only
    by_cases hvoid : voidTags.contains (t.names.name e.name) = true
    · rw [if_pos hvoid]
      exact List.nil_sublist _
    rw [if_neg hvoid]
    by_cases hraw : rawTags.contains (t.names.name e.name) = true
    · rw [if_pos hraw]
      exact List.nil_sublist _
    · rw [if_neg hraw, calls_callAll, calls, List.append_nil, List.map_map]
      show ((markSelected t e.selectedIndex (t.children r.node)).map Prod.fst).Sublist _
      rw [hmarked]

/-! ## All walks -/

/-- **Every walk ends.** On a tree that came about by operations, the way up from a node is shorter
than the tree has nodes, and the way along its children passes each of them once and stops. What
goes down from a node (its text, a search for an id, its markup and that of its content) ends with
the value that the bounded walks have. It enters nodes below the node only, and each at most
once. -/
theorem walks_end (h : t.Built) :
    (WellFounded fun c p => c ∈ t.children p) ∧
    (∀ d : Document, d.tree = t → ∀ id,
      t.RunsBelow (fun c => c) (t.searchBody id) (t.searchBody id .root) .root
        (d.elementById? id)) ∧
    ∀ n,
      (∃ above, t.Leads Node.parent (t.parent? n) above none ∧ above.length < t.size ∧
        ∀ a, t.isAncestor a n = decide (a ∈ above)) ∧
      t.Leads Node.next ((t.get? n).bind Node.firstChild) (t.children n) none ∧
      (t.children n).Nodup ∧
      t.RunsBelow (fun c => c) t.textBody (t.textBody n) n (t.textContent n) ∧
      (∀ id, t.RunsBelow (fun c => c) (t.searchBody id) (t.searchBody id n) n
        (t.findId id t.size n)) ∧
      ∀ layout,
        t.RunsBelow Rendering.node (renderBody layout t) (renderBody layout t ⟨0, false, n⟩) n
          (outer layout t n) ∧
        t.RunsBelow Rendering.node (renderBody layout t)
          (callAll ((t.children n).map fun c => ⟨0, false, c⟩) fun parts =>
            .done (String.join parts)) n (inner layout t n) := by
  have hlinked := h.reachable.wellFormed.toWellLinked
  have hsearch (id : String) (n : NodeId) : t.RunsBelow (fun c => c) (t.searchBody id)
      (t.searchBody id n) n (t.findId id t.size n) := by
    rw [Tree.findId_eq_within]
    exact hlinked.runsBelow_body (t.descends_searchBody id) none n
  refine ⟨hlinked.wellFounded_children, ?_, fun n =>
    ⟨?_, hlinked.leads_children n, hlinked.nodup_children n, ?_, fun id => hsearch id n,
      fun layout => ⟨?_, ?_⟩⟩⟩
  · rintro d rfl id
    exact hsearch id .root
  · obtain ⟨above, hleads, hlength, hmem⟩ := hlinked.exists_way_up n
    refine ⟨above, hleads, hlength.trans_lt (hlinked.depth_lt_size n), fun a => ?_⟩
    rw [Bool.eq_iff_iff, hlinked.grounded.isAncestor_iff, decide_eq_true_iff, hmem]
  · rw [Tree.textContent, Tree.textWithin_eq_within]
    exact hlinked.runsBelow_body t.descends_textBody "" n
  · rw [outer, renderWithin_eq_within]
    exact hlinked.runsBelow_body (descends_renderBody layout t) "" ⟨0, false, n⟩
  · have hparts : inner layout t n =
        (callAll ((t.children n).map fun c => (⟨0, false, c⟩ : Rendering)) fun parts =>
          .done (String.join parts)).eval (within (renderBody layout t) "" t.size) := by
      rw [eval_callAll, eval, List.map_map, inner]
      exact congrArg String.join (List.map_congr_left fun c _ =>
        renderWithin_eq_within layout t t.size 0 false c)
    rw [hparts]
    refine hlinked.runsBelow (descends_renderBody layout t) "" ?_
    simp [calls, Function.comp_def]

/-- Two texts in a paragraph in a division, where appending the division to the paragraph was
refused. -/
theorem walks_end_nested :
    let t := Tree.new.after Tree.nested
    t.Built ∧ t.isAncestor ⟨1⟩ ⟨4⟩ = true ∧
      (∃ above, t.Leads Node.parent (t.parent? ⟨4⟩) above none ∧ ⟨1⟩ ∈ above) ∧
      t.RunsBelow (fun c => c) t.textBody (t.textBody ⟨1⟩) ⟨1⟩ "ab" ∧
      t.RunsBelow Rendering.node (renderBody .compact t) (renderBody .compact t ⟨0, false, ⟨1⟩⟩) ⟨1⟩
        "<div><p>ab</p></div>" := by
  intro t
  have hbuilt : t.Built := .inl (Tree.Reachable.new.after Tree.nested)
  have habove : t.isAncestor ⟨1⟩ ⟨4⟩ = true := by decide +kernel
  have htext : t.textContent ⟨1⟩ = "ab" := by decide +kernel
  have hmarkup : outer .compact t ⟨1⟩ = "<div><p>ab</p></div>" := by decide +kernel
  obtain ⟨-, -, hwalks⟩ := walks_end hbuilt
  obtain ⟨above, hleads, -, hmem⟩ := (hwalks ⟨4⟩).1
  obtain ⟨-, -, -, hruns, -, hrenders⟩ := hwalks ⟨1⟩
  refine ⟨hbuilt, habove, ⟨above, hleads, ?_⟩, htext ▸ hruns, hmarkup ▸ (hrenders .compact).1⟩
  rw [hmem, decide_eq_true_iff] at habove
  exact habove

end PageBuilder.Markup
