import PageBuilder.Proofs.Dom.Ids
import PageBuilder.Proofs.Markup.Forms
import PageBuilder.Proofs.Markup.Roses

/-!
# Inner and outer markup

One would expect the markup of an element to be its start tag, the markup of its content and its end
tag. `outer` renders the content as the element asks for: it writes the texts of a raw element as
they are, and marks the selected option. `inner` does neither. `outer_eq_iff_sameInside` says
exactly for which elements the two agree; they do not for a style sheet with a bracket in it
(`outer_ne_styleSheet`), nor for a select control whose option is not marked by itself.
-/

namespace PageBuilder.Dom.Rose

open Markup

variable {layout : Layout} {depth : ℕ} {selected : Bool}

/-- Whether a node is an element with a given attribute. -/
def carries (name : String) : Rose → Bool
  | element _ attributes _ _ => (attributes.map (·.1)).contains name
  | _ => false

/-! ## Raw texts -/

theorem length_openTag_pos (tag : String) (attributes : List (String × String)) (selected : Bool) :
    0 < (openTag tag attributes selected).length := by
  simp only [openTag, String.length_append]
  have hbracket : "<".length = 1 := rfl
  omega

theorem length_render_element_pos (layout : Layout) (depth : ℕ) (selected : Bool) (tag : String)
    (attributes : List (String × String)) (selectedIndex : Option ℕ) (children : List Rose) :
    0 < (render layout depth selected (element tag attributes selectedIndex children)).length := by
  have htag := length_openTag_pos tag attributes selected
  rw [render]
  simp only [String.length_append]
  omega

/-- A node is never written shorter than its text. -/
theorem length_ownText_le_length_render (r : Rose) :
    r.ownText.length ≤ (r.render layout depth selected).length := by
  cases r with
  | document => exact Nat.zero_le _
  | element => exact Nat.zero_le _
  | text s =>
    rw [render]
    exact length_le_length_escapeText s

/-- The raw text of a node is its markup exactly for a text without markup characters. -/
theorem ownText_eq_render_iff {r : Rose} (hr : ∀ children, r ≠ document children) :
    r.ownText = r.render layout depth selected ↔
      ∃ s, r = text s ∧ ∀ c ∈ s.toList, IsPlain c := by
  cases r with
  | document children => exact absurd rfl (hr children)
  | element tag attributes selectedIndex children =>
    refine iff_of_false (fun heq => ?_) (by simp)
    have hpos := length_render_element_pos layout depth selected tag attributes selectedIndex
      children
    rw [← heq] at hpos
    exact Nat.lt_irrefl 0 hpos
  | text s =>
    rw [render, ownText, escapeText_eq_self_iff]
    simp

/-! ## The selected option -/

theorem openTag_selected_eq_iff (tag : String) (attributes : List (String × String)) :
    openTag tag attributes true = openTag tag attributes false ↔
      (attributes.map (·.1)).contains "selected" = true := by
  constructor
  · intro heq
    by_contra hcarries
    have hlength := congrArg String.length heq
    rw [Bool.not_eq_true] at hcarries
    simp only [openTag, hcarries, String.length_append, Bool.true_and, Bool.false_and,
      Bool.not_false, if_true, Bool.false_eq_true, if_false] at hlength
    have hmark : " selected".length = 9 := rfl
    have hempty : "".length = 0 := rfl
    omega
  · intro hcarries
    simp only [openTag, hcarries, Bool.not_true, Bool.and_false]

/-- Selecting an element shows, unless it carries the attribute already. -/
theorem render_selected_eq_iff {r : Rose} (hr : r.isOption = true) :
    r.render layout depth true = r.render layout depth false ↔ r.carries "selected" = true := by
  cases r with
  | document children => exact absurd hr Bool.false_ne_true
  | element tag attributes selectedIndex children =>
    rw [render, render, String.append_left_inj, String.append_right_inj, openTag_selected_eq_iff,
      carries]
  | text s => exact absurd hr Bool.false_ne_true

/-- A mark makes a difference exactly if the option it is for lacks the attribute. -/
theorem renderAll_some_eq_none_iff (k : ℕ) (rs : List Rose) :
    renderAll layout depth (some k) rs = renderAll layout depth none rs ↔
      ∀ r, (rs.filter isOption)[k]? = some r → r.carries "selected" = true := by
  induction rs generalizing k with
  | nil => simp [renderAll]
  | cons r rest ih =>
    rw [renderAll, renderAll, markAfter_none, markAfter]
    cases hoption : r.isOption with
    | false =>
      rw [if_neg Bool.false_ne_true, Bool.false_and, Bool.false_and, String.append_right_inj, ih,
        List.filter_cons_of_neg (by rw [hoption]; exact Bool.false_ne_true)]
    | true =>
      rw [if_pos rfl, List.filter_cons_of_pos hoption]
      cases k with
      | zero => simp [render_selected_eq_iff hoption]
      | succ k => simp [ih]

end PageBuilder.Dom.Rose

namespace PageBuilder.Markup

open Dom

variable {t : Tree} {n c : NodeId} {e : Element} {r : Rose}

/-! ## Elements of a tree -/

/-- The options among the children of a node, in order. -/
def options (t : Tree) (n : NodeId) : List NodeId :=
  (t.children n).filter fun c => t.tag? c = some "option"

/-- The option that a select control starts with. -/
def selectedOption? (t : Tree) (n : NodeId) (mark : Option ℕ) : Option NodeId :=
  mark.bind fun k => (options t n)[k]?

/-- Whether the content of an element is written the same inside the element and by itself: a raw
element holds nothing but texts without markup characters, and the selected option of any other
carries the attribute already. -/
def SameInside (t : Tree) (n : NodeId) (e : Element) : Prop :=
  if rawTags.contains (t.names.name e.name) then
    ∀ c ∈ t.children n, ∃ s, (t.get? c).bind Node.text? = some s ∧ ∀ ch ∈ s.toList, IsPlain ch
  else
    ∀ c, selectedOption? t n e.selectedIndex = some c → (t.attribute? c "selected").isSome

theorem text?_of_view (h : t.WellFormed) (hr : t.view n = some r) (s : String) :
    (t.get? n).bind Node.text? = some s ↔ r = .text s := by
  obtain ⟨node, hn, rfl⟩ := h.toWellLinked.exists_get?_of_view hr
  rw [hn, Option.bind_some, Node.text?]
  cases node.content <;> simp [Content.label, Rose.ofLabel]

theorem carries_of_view (h : t.WellFormed) (hr : t.view n = some r) (name : String) :
    (t.attribute? n name).isSome = r.carries name := by
  rw [h.attribute?_of_view hr name]
  cases r with
  | document | text => rfl
  | element tag attributes selectedIndex children =>
    rw [Rose.attribute?, Rose.carries, ← Option.not_isNone, isNone_lookup, Bool.not_not]

/-- Only the root is a document, so no child is. -/
theorem ne_document_of_mem (h : t.WellFormed) (hc : c ∈ t.children n) (hr : t.view c = some r)
    (rs : List Rose) : r ≠ .document rs := by
  rintro rfl
  have hparent := h.toWellLinked.mem_children_iff.1 hc
  obtain ⟨node, hnode, hdocument⟩ := h.toWellLinked.exists_get?_of_view hr
  have hcontent : node.content = .document := by
    cases hcontent : node.content <;> rw [hcontent] at hdocument <;> first | rfl | cases hdocument
  rw [(h.toWellLinked.document_iff hnode).1 hcontent, h.toWellLinked.parent?_root] at hparent
  cases hparent

/-- The options among some nodes are shown by the options among their views. -/
theorem map_view_filter_option (h : t.WellFormed) {cs : List NodeId}
    (hviews : ∀ c ∈ cs, ∃ r, t.view c = some r) :
    (cs.filter fun c => t.tag? c = some "option").map t.view =
      ((cs.filterMap t.view).filter Rose.isOption).map some := by
  induction cs with
  | nil => rfl
  | cons c cs ih =>
    obtain ⟨r, hr⟩ := hviews c List.mem_cons_self
    have hrest := ih fun d hd => hviews d (List.mem_cons_of_mem c hd)
    rw [List.filterMap_cons_some hr]
    by_cases hoption : t.tag? c = some "option"
    · rw [List.filter_cons_of_pos (by simpa using hoption),
        List.filter_cons_of_pos ((isOption_of_view h hr).1 hoption), List.map_cons, List.map_cons,
        hrest, hr]
    · rw [List.filter_cons_of_neg (by simpa using hoption),
        List.filter_cons_of_neg (mt (isOption_of_view h hr).2 hoption), hrest]

/-- The texts of a raw element show as they are exactly if there is nothing else, and nothing in
them to escape. -/
theorem join_ownText_eq_iff (h : t.WellFormed) (n : NodeId) :
    String.join ((t.childViews n).map Rose.ownText) =
        String.join ((t.childViews n).map (Rose.render .compact 0 false)) ↔
      ∀ c ∈ t.children n, ∃ s, (t.get? c).bind Node.text? = some s ∧
        ∀ ch ∈ s.toList, IsPlain ch := by
  rw [join_map_eq_join_map_iff fun r _ => Rose.length_ownText_le_length_render r]
  have hiff : ∀ c ∈ t.children n, ∀ r, t.view c = some r →
      (r.ownText = r.render .compact 0 false ↔
        ∃ s, (t.get? c).bind Node.text? = some s ∧ ∀ ch ∈ s.toList, IsPlain ch) := by
    intro c hc r hr
    rw [Rose.ownText_eq_render_iff (ne_document_of_mem h hc hr)]
    simp only [text?_of_view h hr]
  constructor
  · intro heq c hc
    obtain ⟨r, hr⟩ := h.toWellLinked.exists_view_of_mem hc
    exact (hiff c hc r hr).1 (heq r (List.mem_filterMap.2 ⟨c, hc, hr⟩))
  · intro hplain r hmem
    obtain ⟨c, hc, hr⟩ := List.mem_filterMap.1 hmem
    exact (hiff c hc r hr).2 (hplain c hc)

/-- The selected option shows exactly if it does not carry the attribute. -/
theorem renderAll_mark_eq_iff (h : t.WellFormed) (layout : Layout) (depth : ℕ) (mark : Option ℕ)
    (n : NodeId) :
    Rose.renderAll layout depth mark (t.childViews n) =
        Rose.renderAll layout depth none (t.childViews n) ↔
      ∀ c, selectedOption? t n mark = some c → (t.attribute? c "selected").isSome := by
  cases mark with
  | none => simp [selectedOption?]
  | some k =>
    have hoption : ((options t n)[k]?).map t.view =
        (((t.childViews n).filter Rose.isOption)[k]?).map some := by
      rw [← List.getElem?_map, ← List.getElem?_map, options, Tree.childViews,
        map_view_filter_option h fun c hc => h.toWellLinked.exists_view_of_mem hc]
    rw [Rose.renderAll_some_eq_none_iff, selectedOption?, Option.bind_some]
    cases hc : (options t n)[k]? with
    | none =>
      rw [hc, Option.map_none, eq_comm, Option.map_eq_none_iff] at hoption
      simp [hoption]
    | some c =>
      rw [hc, Option.map_some, eq_comm, Option.map_eq_some_iff] at hoption
      obtain ⟨r, hr, hview⟩ := hoption
      simp [hr, carries_of_view h hview.symm]

/-- **Inner and outer markup agree exactly for elements whose content needs nothing from them.** -/
theorem outer_eq_iff_sameInside (ht : t.Reachable) (he : t.element? n = some e)
    (hvoid : voidTags.contains (t.names.name e.name) = false) :
    outer .compact t n =
        startTag t.names e false ++ inner .compact t n ++ endTag (t.names.name e.name) ↔
      SameInside t n e := by
  have h := ht.wellFormed
  rw [outer_eq h, inner_eq h, h.toWellLinked.view_eq, Tree.label?_of_element? he,
    startTag_eq h.toNamed he, SameInside]
  simp only [Content.label, Option.map_some, Option.elim, Rose.ofLabel, Rose.render, hvoid,
    Layout.lineBreak, ite_self, String.empty_append, String.append_empty,
    Bool.false_eq_true, if_false, String.append_assoc, String.append_right_inj,
    String.append_left_inj]
  split
  · exact join_ownText_eq_iff h n
  · rw [Rose.renderAll_compact (0 + 1) 0, ← Rose.renderAll_none, renderAll_mark_eq_iff h]

/-- A select control that starts with an option, which has some attribute. -/
def selectControl (name : String) : Tree :=
  Tree.new.after [.createElement "select", .createElement "option", .append ⟨1⟩ ⟨2⟩,
    .setSelectedIndex ⟨1⟩ 0, .setAttribute ⟨2⟩ name ""]

theorem outer_eq_selectControl :
    outer .compact (selectControl "selected") ⟨1⟩ =
      "<select>" ++ inner .compact (selectControl "selected") ⟨1⟩ ++ "</select>" := by
  obtain ⟨helement, hname, hoption, hattribute⟩ :
      (selectControl "selected").element? ⟨1⟩ = some { name := ⟨9⟩, selectedIndex := some 0 } ∧
        (selectControl "selected").names.name ⟨9⟩ = "select" ∧
        selectedOption? (selectControl "selected") ⟨1⟩ (some 0) = some ⟨2⟩ ∧
        ((selectControl "selected").attribute? ⟨2⟩ "selected").isSome := by
    decide +kernel
  have hagree := outer_eq_iff_sameInside (t := selectControl "selected")
    (Tree.Reachable.new.after _) helement (by rw [hname]; decide)
  rw [startTag, hname] at hagree
  refine hagree.2 ?_
  rw [SameInside, hname, if_neg (by decide)]
  intro c hc
  cases hoption.symm.trans hc
  exact hattribute

example :
    outer .compact (selectControl "id") ⟨1⟩ = "<select><option id selected></option></select>" ∧
    inner .compact (selectControl "id") ⟨1⟩ = "<option id></option>" := by
  decide +kernel

/-- A style sheet with a bracket in it. -/
def styleSheet : Tree :=
  Tree.new.after [.createElement "style", .createText "a<b", .append ⟨1⟩ ⟨2⟩]

/-- Inner and outer markup do not agree for every element: what is inside a style sheet is written
as it is, and by itself it is escaped. -/
theorem outer_ne_styleSheet :
    styleSheet.Reachable ∧ styleSheet.tag? ⟨1⟩ = some "style" ∧
      voidTags.contains "style" = false ∧
      outer .compact styleSheet ⟨1⟩ = "<style>a<b</style>" ∧
      inner .compact styleSheet ⟨1⟩ = "a&lt;b" ∧
      outer .compact styleSheet ⟨1⟩ ≠
        "<style>" ++ inner .compact styleSheet ⟨1⟩ ++ endTag "style" :=
  ⟨Tree.Reachable.new.after _, by decide +kernel⟩

end PageBuilder.Markup
