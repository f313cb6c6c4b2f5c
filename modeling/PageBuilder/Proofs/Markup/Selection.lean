import PageBuilder.Proofs.Dom.Changes
import PageBuilder.Proofs.Markup.InnerOuter

/-!
# Marking the selected option

A select control is rendered by walking along its children and counting the options among them. The
counter comes down to one change in the markup: ` selected` stands behind the attributes of the
option at the selected index, and everything around it is as it would be without a selected index
(`outer_eq_marked`). What is not an option is not counted, what is deeper is not marked, and if
there are too few options, nothing is.
-/

namespace PageBuilder

/-- The member of a filtered list at a position, by how many members come before it. -/
theorem exists_append_of_getElem?_filter {α : Type*} {p : α → Bool} {l : List α} {k : ℕ} {a : α}
    (h : (l.filter p)[k]? = some a) :
    ∃ before after, l = before ++ a :: after ∧ (before.filter p).length = k := by
  induction l generalizing k with
  | nil => cases h
  | cons b l ih =>
    by_cases hb : p b = true
    · rw [List.filter_cons_of_pos hb] at h
      cases k with
      | zero =>
        obtain rfl : b = a := Option.some.inj h
        exact ⟨[], l, rfl, rfl⟩
      | succ k =>
        obtain ⟨before, after, rfl, hcount⟩ := ih (List.getElem?_cons_succ.symm.trans h)
        exact ⟨b :: before, after, rfl, by
          rw [List.filter_cons_of_pos hb, List.length_cons, hcount]⟩
    · rw [List.filter_cons_of_neg hb] at h
      obtain ⟨before, after, rfl, hcount⟩ := ih h
      exact ⟨b :: before, after, rfl, by rw [List.filter_cons_of_neg hb, hcount]⟩

/-! ## Clearing the selected index -/

namespace Dom.Tree

variable {t : Tree} {n c : NodeId} {e : Element}

/-- The tree in which an element has no selected index. -/
def clearSelectedIndex (t : Tree) (n : NodeId) : Tree :=
  (t.updateElement n fun e => { e with selectedIndex := none }).2

theorem WellFormed.clearSelectedIndex (h : t.WellFormed) (n : NodeId) :
    (t.clearSelectedIndex n).WellFormed := by
  refine ⟨h.toWellLinked.updateElement n _, h.toNamed.updateElement fun e he => ?_⟩
  exact ⟨h.tag (e := e) he, h.attributes (e := e) he⟩

theorem element?_clearSelectedIndex (he : t.element? n = some e) :
    (t.clearSelectedIndex n).element? n = some { e with selectedIndex := none } := by
  rw [clearSelectedIndex, element?_updateElement, he, Option.map_some, if_pos rfl]

theorem names_clearSelectedIndex (t : Tree) (n : NodeId) :
    (t.clearSelectedIndex n).names = t.names :=
  names_updateElement t n _

/-- What is below the element shows what it showed. -/
theorem childViews_clearSelectedIndex (h : t.WellFormed) (n : NodeId) :
    (t.clearSelectedIndex n).childViews n = t.childViews n :=
  (changedAt_updateElement (h.clearSelectedIndex n) h.toWellLinked).childViews_self_eq h
    (congrFun (children_updateElement h.toWellLinked n _) n)

end Dom.Tree

open Dom

/-! ## The mark -/

namespace Markup

/-- A start tag up to the end of its attributes. -/
def tagHead (tag : String) (attributes : List (String × String)) : String :=
  "<" ++ tag ++ String.join (attributes.map fun a => attributeText a.1 a.2)

/-- The start tag of an option that does not carry the attribute. -/
theorem openTag_option {attributes : List (String × String)}
    (h : (attributes.map (·.1)).contains "selected" = false) (selected : Bool) :
    openTag "option" attributes selected =
      tagHead "option" attributes ++ (if selected then " selected" else "") ++ ">" := by
  have hvoid : voidTags.contains "option" = false := by decide
  rw [openTag, h, hvoid, Bool.not_false, Bool.and_true, tagHead]
  rfl

end Markup

namespace Dom.Rose

open Markup

variable {layout : Layout} {depth k : ℕ} {before after : List Rose} {r : Rose}

theorem renderAll_append_cons (depth : ℕ) (before : List Rose) (r : Rose) (after : List Rose) :
    renderAll layout depth none (before ++ r :: after) =
      renderAll layout depth none before ++ render layout depth false r ++
        renderAll layout depth none after := by
  simp only [renderAll_none, List.map_append, List.map_cons, String.join_append, String.join_cons,
    String.append_assoc]

/-- **The counter meets the option that has as many options before it**, and no other. -/
theorem renderAll_append_option (hcount : (before.filter isOption).length = k)
    (hr : r.isOption = true) :
    renderAll layout depth (some k) (before ++ r :: after) =
      renderAll layout depth none before ++ render layout depth true r ++
        renderAll layout depth none after := by
  induction before generalizing k with
  | nil =>
    obtain rfl : 0 = k := hcount
    simp [renderAll, markAfter, hr]
  | cons s before ih =>
    rw [List.cons_append, renderAll, renderAll, markAfter_none]
    cases hs : s.isOption with
    | false =>
      -- what is no option is not counted
      rw [List.filter_cons_of_neg (by rw [hs]; exact Bool.false_ne_true)] at hcount
      rw [markAfter, hs, if_neg Bool.false_ne_true, ih hcount]
      simp only [Bool.false_and, String.append_assoc]
    | true =>
      rw [List.filter_cons_of_pos hs, List.length_cons] at hcount
      obtain rfl := hcount
      have hmark : markAfter (some ((before.filter isOption).length + 1)) s =
          some (before.filter isOption).length := by simp [markAfter, hs]
      rw [hmark, ih rfl]
      simp [String.append_assoc]

/-- An option looks the same with a mark and without, but for the mark. -/
theorem exists_render_option {attributes : List (String × String)}
    (h : (attributes.map (·.1)).contains "selected" = false) (layout : Layout) (hdepth : depth ≠ 0)
    (selectedIndex : Option ℕ) (children : List Rose) :
    ∃ rest, ∀ selected,
      (element "option" attributes selectedIndex children).render layout depth selected =
        layout.lineBreak depth ++ tagHead "option" attributes ++
          (if selected then " selected" else "") ++ ">" ++ rest := by
  have hvoid : voidTags.contains "option" = false := by decide
  have hraw : rawTags.contains "option" = false := by decide
  refine ⟨renderAll layout (depth + 1) selectedIndex children ++
    (if children.any isElement then layout.lineBreak depth else "") ++ endTag "option",
    fun selected => ?_⟩
  rw [render, openTag_option h, if_neg hdepth, hvoid, hraw]
  simp only [Bool.false_eq_true, if_false, String.append_assoc]

end Dom.Rose

/-! ## Select controls -/

namespace Markup

variable {t : Tree} {n c : NodeId} {e : Element}

/-- What is written of a select control up to the end of an option's attributes, if some nodes come
before the option. -/
def upToMark (layout : Layout) (t : Tree) (e : Element) (before : List NodeId) (option : Element) :
    String :=
  startTag t.names e false ++ String.join (before.map (renderWithin layout t t.size 1 false)) ++
    layout.lineBreak 1 ++ tagHead "option" (t.namedAttributes option)

/-- The markup of an element that is neither void nor raw. -/
theorem outer_of_container (h : t.WellFormed) (he : t.element? n = some e)
    (hvoid : voidTags.contains (t.names.name e.name) = false)
    (hraw : rawTags.contains (t.names.name e.name) = false) (layout : Layout) :
    outer layout t n =
      startTag t.names e false ++ Rose.renderAll layout 1 e.selectedIndex (t.childViews n) ++
        ((if (t.childViews n).any Rose.isElement then layout.lineBreak 0 else "") ++
          endTag (t.names.name e.name)) := by
  rw [outer_eq h, h.toWellLinked.view_eq, Tree.label?_of_element? he, startTag_eq h.toNamed he]
  simp only [Content.label, Option.map_some, Option.elim, Rose.ofLabel, Rose.render, hvoid, hraw,
    if_true, Bool.false_eq_true, if_false, String.empty_append, String.append_assoc]

/-- Clearing the selected index takes the mark away, and nothing else. -/
theorem outer_clearSelectedIndex (h : t.WellFormed) (he : t.element? n = some e)
    (hvoid : voidTags.contains (t.names.name e.name) = false)
    (hraw : rawTags.contains (t.names.name e.name) = false) (layout : Layout) :
    outer layout (t.clearSelectedIndex n) n =
      startTag t.names e false ++ Rose.renderAll layout 1 none (t.childViews n) ++
        ((if (t.childViews n).any Rose.isElement then layout.lineBreak 0 else "") ++
          endTag (t.names.name e.name)) := by
  have hnames := Tree.names_clearSelectedIndex t n
  have hcleared := outer_of_container (h.clearSelectedIndex n)
    (Tree.element?_clearSelectedIndex he) (hnames ▸ hvoid) (hnames ▸ hraw) layout
  rwa [hnames, Tree.childViews_clearSelectedIndex h] at hcleared

/-- Nodes side by side are rendered as what they show. -/
theorem join_map_renderWithin (h : t.WellFormed) (layout : Layout) (depth : ℕ) {cs : List NodeId}
    (hviews : ∀ c ∈ cs, ∃ r, t.view c = some r) :
    String.join (cs.map (renderWithin layout t t.size depth false)) =
      Rose.renderAll layout depth none (cs.filterMap t.view) := by
  rw [Rose.renderAll_none]
  refine congrArg String.join (Tree.map_eq_map_views fun c hc => ?_)
  obtain ⟨r, hr⟩ := hviews c hc
  exact ⟨r, hr, by rw [renderWithin_eq h (Nat.sub_le _ _), hr]; rfl⟩

/-- What stands around an option below an element: the options before it are counted alike in the
tree and in what it shows, and what is before it is written by itself. -/
theorem exists_children_eq_append (h : t.WellFormed) {k : ℕ} (hc : (options t n)[k]? = some c)
    {r : Rose} (hr : t.view c = some r) :
    ∃ before after, t.children n = before ++ c :: after ∧
      t.childViews n = before.filterMap t.view ++ r :: after.filterMap t.view ∧
      ((before.filterMap t.view).filter Rose.isOption).length = k ∧
      ∀ layout depth, String.join (before.map (renderWithin layout t t.size depth false)) =
        Rose.renderAll layout depth none (before.filterMap t.view) := by
  obtain ⟨before, after, hchildren, hcount⟩ := exists_append_of_getElem?_filter hc
  have hviews : ∀ d ∈ before, ∃ r, t.view d = some r := by
    intro d hd
    have hmem : d ∈ t.children n := by
      rw [hchildren]
      exact List.mem_append_left _ hd
    exact h.toWellLinked.exists_view_of_mem hmem
  refine ⟨before, after, hchildren, ?_, ?_, fun layout depth =>
    join_map_renderWithin h layout depth hviews⟩
  · rw [Tree.childViews, hchildren, List.filterMap_append, List.filterMap_cons_some hr]
  · have hlength := congrArg List.length (map_view_filter_option h hviews)
    rwa [List.length_map, List.length_map, hcount, eq_comm] at hlength

/-- An option that does not carry the attribute, as it shows. -/
theorem view_option (h : t.WellFormed) (htag : t.tag? c = some "option")
    (hattribute : t.attribute? c "selected" = none) :
    ∃ option, t.element? c = some option ∧
      ((t.namedAttributes option).map (·.1)).contains "selected" = false ∧
      t.view c = some (.element "option" (t.namedAttributes option) option.selectedIndex
        (t.childViews c)) := by
  obtain ⟨option, hoption, hname⟩ := Option.map_eq_some_iff.1 htag
  have hview : t.view c = some (.element "option" (t.namedAttributes option) option.selectedIndex
      (t.childViews c)) := by
    rw [h.toWellLinked.view_eq, Tree.label?_of_element? hoption, ← hname]
    rfl
  have hcarries := carries_of_view h hview "selected"
  rw [hattribute, Option.isSome_none] at hcarries
  exact ⟨option, hoption, hcarries.symm, hview⟩

/-- **A selected index marks one option.** If there is an option at that position among the options
right below an element, and it does not carry the attribute itself, then ` selected` is written
behind its attributes; all else is written as without a selected index. Otherwise there is no
difference. -/
theorem outer_eq_marked (ht : t.Reachable) (he : t.element? n = some e)
    (hvoid : voidTags.contains (t.names.name e.name) = false)
    (hraw : rawTags.contains (t.names.name e.name) = false) {k : ℕ}
    (hk : e.selectedIndex = some k) (layout : Layout) :
    (∀ c, (options t n)[k]? = some c → t.attribute? c "selected" = none →
      ∃ before after option rest, t.children n = before ++ c :: after ∧
        t.element? c = some option ∧
        outer layout (t.clearSelectedIndex n) n =
          upToMark layout t e before option ++ ">" ++ rest ∧
        outer layout t n = upToMark layout t e before option ++ " selected" ++ ">" ++ rest) ∧
    ((∀ c, (options t n)[k]? = some c → (t.attribute? c "selected").isSome) →
      outer layout t n = outer layout (t.clearSelectedIndex n) n) := by
  have h := ht.wellFormed
  rw [outer_clearSelectedIndex h he hvoid hraw, outer_of_container h he hvoid hraw, hk]
  generalize (if (t.childViews n).any Rose.isElement then layout.lineBreak 0 else "") ++
    endTag (t.names.name e.name) = ending
  refine ⟨fun c hc hattribute => ?_, fun hcarried => ?_⟩
  · have htag : t.tag? c = some "option" := by
      simpa using (List.mem_filter.1 (List.mem_of_getElem? hc)).2
    obtain ⟨option, hoption, hcarries, hview⟩ := view_option h htag hattribute
    obtain ⟨before, after, hchildren, hchildViews, hcount, hbefore⟩ :=
      exists_children_eq_append h hc hview
    obtain ⟨rest, hrender⟩ := Rose.exists_render_option hcarries layout one_ne_zero
      option.selectedIndex (t.childViews c)
    refine ⟨before, after, option,
      rest ++ Rose.renderAll layout 1 none (after.filterMap t.view) ++ ending,
      hchildren, hoption, ?_, ?_⟩
    · rw [hchildViews, Rose.renderAll_append_cons, hrender, upToMark, hbefore]
      simp only [Bool.false_eq_true, if_false, String.append_assoc, String.empty_append]
    · rw [hchildViews, Rose.renderAll_append_option hcount rfl, hrender, upToMark, hbefore]
      simp only [if_true, String.append_assoc]
  · rw [(renderAll_mark_eq_iff h layout 1 (some k) n).2 hcarried]

/-- A select control with a text, an option, a select control of its own and another option. -/
def nestedControls (index : ℕ) : Tree :=
  Tree.new.after [.createElement "select", .createText "a", .createElement "option",
    .createElement "select", .createElement "option", .createElement "option",
    .setAttribute ⟨6⟩ "class" "b", .append ⟨1⟩ ⟨2⟩, .append ⟨1⟩ ⟨3⟩, .append ⟨4⟩ ⟨5⟩,
    .append ⟨1⟩ ⟨4⟩, .append ⟨1⟩ ⟨6⟩, .setSelectedIndex ⟨4⟩ 0, .setSelectedIndex ⟨1⟩ index]

/-- Its second option is the last of its children, and it has no third option. -/
theorem outer_eq_marked_nestedControls :
    (∀ layout, ∃ before after option rest,
      (nestedControls 1).children ⟨1⟩ = before ++ ⟨6⟩ :: after ∧
        (nestedControls 1).element? ⟨6⟩ = some option ∧
        outer layout ((nestedControls 1).clearSelectedIndex ⟨1⟩) ⟨1⟩ =
          upToMark layout (nestedControls 1) ⟨⟨9⟩, [], none, some 1⟩ before option ++ ">" ++ rest ∧
        outer layout (nestedControls 1) ⟨1⟩ =
          upToMark layout (nestedControls 1) ⟨⟨9⟩, [], none, some 1⟩ before option ++
            " selected" ++ ">" ++ rest) ∧
    (∀ layout, outer layout (nestedControls 2) ⟨1⟩ =
      outer layout ((nestedControls 2).clearSelectedIndex ⟨1⟩) ⟨1⟩) := by
  have hreachable : ∀ index, (nestedControls index).Reachable := fun index =>
    Tree.Reachable.new.after _
  obtain ⟨helement, hvoid, hraw, hoption, hattribute⟩ :
      (nestedControls 1).element? ⟨1⟩ = some ⟨⟨9⟩, [], none, some 1⟩ ∧
        voidTags.contains ((nestedControls 1).names.name ⟨9⟩) = false ∧
        rawTags.contains ((nestedControls 1).names.name ⟨9⟩) = false ∧
        (options (nestedControls 1) ⟨1⟩)[1]? = some ⟨6⟩ ∧
        (nestedControls 1).attribute? ⟨6⟩ "selected" = none := by
    decide +kernel
  obtain ⟨helement', hvoid', hraw', hnone⟩ :
      (nestedControls 2).element? ⟨1⟩ = some ⟨⟨9⟩, [], none, some 2⟩ ∧
        voidTags.contains ((nestedControls 2).names.name ⟨9⟩) = false ∧
        rawTags.contains ((nestedControls 2).names.name ⟨9⟩) = false ∧
        (options (nestedControls 2) ⟨1⟩)[2]? = none := by
    decide +kernel
  refine ⟨fun layout => ?_, fun layout => ?_⟩
  · exact (outer_eq_marked (hreachable 1) helement hvoid hraw rfl layout).1 ⟨6⟩ hoption hattribute
  · refine (outer_eq_marked (hreachable 2) helement' hvoid' hraw' rfl layout).2 fun c hc => ?_
    rw [hnone] at hc
    cases hc

example :
    outer .compact ((nestedControls 1).clearSelectedIndex ⟨1⟩) ⟨1⟩ =
      "<select>a<option></option><select><option selected></option></select>" ++
        "<option class=\"b\"></option></select>" ∧
    outer .compact (nestedControls 1) ⟨1⟩ =
      "<select>a<option></option><select><option selected></option></select>" ++
        "<option class=\"b\" selected></option></select>" := by
  decide +kernel

end Markup

end PageBuilder
