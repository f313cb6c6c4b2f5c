import PageBuilder.Markup.Render
import PageBuilder.Proofs.Dom.Views

/-!
# Rendering what a tree shows

Rendering follows the links of a tree and looks up names by number, yet it depends on nothing but
what the tree shows: `Rose.render` says the same by recursion over a `Rose`, and `outer_eq` and
`inner_eq` say that a node is rendered as its view is, and its content as the views of its children.
-/

namespace PageBuilder.Markup

open Dom

/-- The start tag of an element, by its names. -/
def openTag (tag : String) (attributes : List (String × String)) (selected : Bool) : String :=
  "<" ++ tag ++ String.join (attributes.map fun a => attributeText a.1 a.2)
    ++ (if selected && !(attributes.map (·.1)).contains "selected" then " selected" else "")
    ++ (if voidTags.contains tag then " />" else ">")

end PageBuilder.Markup

namespace PageBuilder.Dom.Rose

open Markup

/-- Whether a node is an element. -/
def isElement : Rose → Bool
  | element .. => true
  | _ => false

/-- Whether a node is an option of a select control. -/
def isOption : Rose → Bool
  | element tag .. => tag == "option"
  | _ => false

/-- The text of a node, if it is one. -/
def ownText : Rose → String
  | text s => s
  | _ => ""

/-- How many options are still to be passed before the selected one, after a node was passed. -/
def markAfter (mark : Option ℕ) (r : Rose) : Option ℕ :=
  if r.isOption then mark.bind fun k => if k = 0 then none else some (k - 1) else mark

mutual

/-- A node at some depth, rendered. -/
def render (layout : Layout) : ℕ → Bool → Rose → String
  | depth, _, document children => renderAll layout depth none children
  | depth, selected, element tag attributes selectedIndex children =>
    (if depth = 0 then "" else layout.lineBreak depth) ++ openTag tag attributes selected ++
      if voidTags.contains tag then ""
      else
        (if rawTags.contains tag then String.join (children.map ownText)
          else renderAll layout (depth + 1) selectedIndex children) ++
        (if children.any isElement then layout.lineBreak depth else "") ++ endTag tag
  | _, _, text s => escapeText s

/-- Nodes side by side at some depth, rendered; `mark` counts the options before the selected
one. -/
def renderAll (layout : Layout) : ℕ → Option ℕ → List Rose → String
  | _, _, [] => ""
  | depth, mark, r :: rest =>
    render layout depth (r.isOption && mark == some 0) r ++
      renderAll layout depth (markAfter mark r) rest

end

variable {layout : Layout}

theorem markAfter_none (r : Rose) : markAfter none r = none := by
  rw [markAfter]
  split <;> rfl

/-- Without a mark, nodes side by side are rendered each by itself. -/
theorem renderAll_none (depth : ℕ) (rs : List Rose) :
    renderAll layout depth none rs = String.join (rs.map (render layout depth false)) := by
  induction rs with
  | nil => simp [renderAll]
  | cons r rest ih => simp [renderAll, markAfter_none, ih]

mutual

/-- Without line breaks, the depth of a node makes no difference. -/
theorem render_compact (d d' : ℕ) (selected : Bool) (r : Rose) :
    render .compact d selected r = render .compact d' selected r := by
  cases r with
  | document children => rw [render, render, renderAll_compact d d' none children]
  | element tag attributes selectedIndex children =>
    rw [render, render, renderAll_compact (d + 1) (d' + 1) selectedIndex children]
    simp only [Layout.lineBreak, ite_self]
  | text s => rw [render, render]

theorem renderAll_compact (d d' : ℕ) (mark : Option ℕ) (rs : List Rose) :
    renderAll .compact d mark rs = renderAll .compact d' mark rs := by
  cases rs with
  | nil => rw [renderAll, renderAll]
  | cons r rest =>
    rw [renderAll, renderAll, render_compact d d' _ r, renderAll_compact d d' _ rest]

end

end PageBuilder.Dom.Rose

namespace PageBuilder.Markup

open Dom

variable {layout : Layout} {t : Tree} {n : NodeId} {e : Element}

/-! ## Tags -/

/-- Whether an element has an attribute does not depend on how its name is looked up. -/
theorem isNone_attribute?_iff (ht : t.Named) (he : t.element? n = some e) (name : String) :
    ((t.names.find? name).bind e.attribute?).isNone =
      !((e.attributes.map fun a => (t.names.name a.name, a.value)).map (·.1)).contains name := by
  rw [ht.bind_attribute?_eq he]
  exact isNone_lookup _ name

theorem startTag_eq (ht : t.Named) (he : t.element? n = some e) (selected : Bool) :
    startTag t.names e selected =
      openTag (t.names.name e.name) (e.attributes.map fun a => (t.names.name a.name, a.value))
        selected := by
  simp only [startTag, openTag, isNone_attribute?_iff ht he, List.map_map, Function.comp_def]

/-! ## Children -/

theorem isElement_of_view (h : t.WellFormed) {r : Rose} (hr : t.view n = some r) :
    (t.element? n).isSome = r.isElement := by
  obtain ⟨node, hn, rfl⟩ := h.toWellLinked.exists_get?_of_view hr
  rw [Tree.element?, hn, Option.bind_some, Node.element?]
  cases node.content <;> rfl

theorem isOption_of_view (h : t.WellFormed) {r : Rose} (hr : t.view n = some r) :
    t.tag? n = some "option" ↔ r.isOption = true := by
  obtain ⟨node, hn, rfl⟩ := h.toWellLinked.exists_get?_of_view hr
  rw [Tree.tag?, Tree.element?, hn, Option.bind_some, Node.element?]
  cases node.content <;> simp [Content.label, Rose.ofLabel, Rose.isOption]

theorem ownText_of_view (h : t.WellFormed) {r : Rose} (hr : t.view n = some r) :
    ((t.get? n).bind Node.text?).getD "" = r.ownText := by
  obtain ⟨node, hn, rfl⟩ := h.toWellLinked.exists_get?_of_view hr
  rw [hn, Option.bind_some, Node.text?]
  cases node.content <;> rfl

theorem hasElementChild_eq (h : t.WellFormed) (n : NodeId) :
    t.hasElementChild n = (t.childViews n).any Rose.isElement :=
  h.toWellLinked.any_children_eq (isElement_of_view h) n

theorem rawContent_eq (h : t.WellFormed) (n : NodeId) :
    rawContent t n = String.join ((t.childViews n).map Rose.ownText) :=
  congrArg String.join (h.toWellLinked.map_children_eq (ownText_of_view h) n)

/-- The selected option is the same in the tree and in what it shows. -/
theorem join_markSelected (h : t.WellFormed) (layout : Layout) (depth : ℕ)
    {f : Bool → NodeId → String} (mark : Option ℕ) (cs : List NodeId)
    (hf : ∀ c ∈ cs, ∃ r, t.view c = some r ∧
      ∀ selected, f selected c = r.render layout depth selected) :
    String.join ((markSelected t mark cs).map fun c => f c.2 c.1) =
      Rose.renderAll layout depth mark (cs.filterMap t.view) := by
  induction cs generalizing mark with
  | nil => simp [markSelected, Rose.renderAll]
  | cons c cs ih =>
    obtain ⟨r, hr, hrender⟩ := hf c List.mem_cons_self
    have hrest := fun mark => ih mark fun d hd => hf d (List.mem_cons_of_mem c hd)
    rw [List.filterMap_cons_some hr, Rose.renderAll]
    cases mark with
    | none =>
      rw [Rose.markAfter_none, ← hrest none]
      simp [markSelected, hrender]
    | some k =>
      rw [markSelected]
      by_cases hoption : t.tag? c = some "option"
      · have hmark := (isOption_of_view h hr).1 hoption
        rw [if_pos hoption, List.map_cons, String.join_cons, hrest, hrender, Rose.markAfter,
          if_pos hmark, hmark]
        simp
      · have hmark : r.isOption = false :=
          Bool.eq_false_iff.2 (mt (isOption_of_view h hr).2 hoption)
        rw [if_neg hoption, List.map_cons, String.join_cons, hrest, hrender, Rose.markAfter, hmark]
        simp

/-! ## Nodes -/

/-- **Rendering depends on what a tree shows alone.** -/
theorem renderWithin_eq (h : t.WellFormed) {levels : ℕ} (hlevels : t.size - t.depth n ≤ levels)
    (depth : ℕ) (selected : Bool) :
    renderWithin layout t levels depth selected n =
      (t.view n).elim "" (Rose.render layout depth selected) := by
  have hlinked := h.toWellLinked
  induction levels generalizing n depth selected with
  | zero =>
    have hview : t.view n = none := (hlinked.viewWithin_eq_view hlevels).symm
    rw [hview]
    rfl
  | succ levels ih =>
    rw [hlinked.view_eq, renderWithin]
    cases hn : t.get? n with
    | none => rw [Tree.label?_eq_none_iff.2 hn]; rfl
    | some node =>
      -- one level fewer is enough for the children
      have hchild : ∀ c ∈ t.children n, ∃ r, t.view c = some r ∧ ∀ depth selected,
          renderWithin layout t levels depth selected c = r.render layout depth selected := by
        intro c hc
        obtain ⟨r, hr⟩ := h.toWellLinked.exists_view_of_mem hc
        have hparent := hlinked.mem_children_iff.1 hc
        have hdeeper := hlinked.grounded.depth_lt_depth hparent
        have hsize := hlinked.grounded.depth_lt_size (Tree.lt_size_of_get? hn)
        refine ⟨r, hr, fun depth selected => ?_⟩
        rw [ih (by omega), hr]
        rfl
      rw [Tree.label?, hn, Option.map_some, Option.map_some, Option.map_some]
      cases hcontent : node.content with
      | document =>
        have hmap := Tree.map_eq_map_views (f := renderWithin layout t levels depth false)
          (g := Rose.render layout depth false) fun c hc => by
            obtain ⟨r, hr, hrender⟩ := hchild c hc
            exact ⟨r, hr, hrender depth false⟩
        simp only [Content.label, Rose.ofLabel, Option.elim, Rose.render, Rose.renderAll_none,
          Tree.childViews, hmap]
      | text s => rfl
      | element e =>
        have he : t.element? n = some e := Tree.element?_eq_some_iff.2 ⟨node, hn, hcontent⟩
        have hcontents := join_markSelected h layout (depth + 1)
          (f := renderWithin layout t levels (depth + 1)) e.selectedIndex (t.children n)
          fun c hc => by
            obtain ⟨r, hr, hrender⟩ := hchild c hc
            exact ⟨r, hr, hrender (depth + 1)⟩
        simp only [Content.label, Rose.ofLabel, Option.elim, Rose.render,
          startTag_eq h.toNamed he, rawContent_eq h, hasElementChild_eq h]
        rw [hcontents, ← Tree.childViews]
        split_ifs <;> simp only [String.append_assoc, String.append_empty]

/-- A node is rendered as what it shows. -/
theorem outer_eq (h : t.WellFormed) (layout : Layout) (n : NodeId) :
    outer layout t n = (t.view n).elim "" (Rose.render layout 0 false) :=
  renderWithin_eq h (Nat.sub_le _ _) 0 false

/-- The content of a node is rendered as what its children show. -/
theorem inner_eq (h : t.WellFormed) (layout : Layout) (n : NodeId) :
    inner layout t n = String.join ((t.childViews n).map (Rose.render layout 0 false)) := by
  refine congrArg String.join (h.toWellLinked.map_children_eq (fun hr => ?_) n)
  rw [outer_eq h, hr]
  rfl

end PageBuilder.Markup
