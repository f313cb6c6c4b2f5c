import PageBuilder.Proofs.Dom.Texts
import PageBuilder.Proofs.Page.Growth
import PageBuilder.Proofs.Page.RoundTrip

/-!
# Every descriptor is accounted for

A descriptor puts one element into the container, or one style into the head, or it is skipped. What
stands in either place is what the descriptors put there, in their order, and so their number is
that of the elements, the styles and the skipped ones (`compile_accounts`).
-/

namespace PageBuilder

open Dom

namespace Descriptor

/-- The tag of the element that a descriptor puts into the container. -/
def rootTag? : Descriptor → Option String
  | directive s =>
    if s = "br" ∨ s = "hr" then some s else if (styleText? s).isSome then none else some "p"
  | element r =>
    match r.get? "type" with
    | some (.string name) => (ElementKind.ofTypeName? name).map ElementKind.tag
    | _ => none
  | invalid _ => none

/-- Whether a descriptor asks for nothing: an invalid value, or a record whose type names no kind of
element. -/
def isSkipped : Descriptor → Bool
  | directive _ => false
  | element r =>
    match r.get? "type" with
    | some (.string name) => (ElementKind.ofTypeName? name).isNone
    | _ => true
  | invalid _ => true

theorem rootTag?_element (r : Record) : (element r).rootTag? = r.kind?.map ElementKind.tag := by
  rw [rootTag?, Record.kind?, Record.typeName?]
  cases r.get? "type" with
  | none => rfl
  | some value => cases value <;> rfl

theorem isSkipped_element (r : Record) : (element r).isSkipped = r.kind?.isNone := by
  rw [isSkipped, Record.kind?, Record.typeName?]
  cases r.get? "type" with
  | none => rfl
  | some value => cases value <;> rfl

/-- What a descriptor shows in the container has the tag that it gives. -/
theorem map_tag?_shown_root (settings : Settings) (x : Descriptor) :
    (x.shown settings .root).map Rose.tag? = x.rootTag?.toList.map some := by
  cases x with
  | invalid value => rfl
  | element r =>
    rw [shown, part?, rootTag?_element]
    cases r.kind? with
    | none => rfl
    | some kind =>
      have hrose := (Part.ofRecord settings kind r).tag?_rose
      exact congrArg (fun tag => [tag]) hrose
  | directive s =>
    show ((Part.ofDirective s).shown .root).map Rose.tag? = _
    rw [rootTag?, Part.ofDirective]
    split
    · rfl
    · cases styleText? s <;> rfl

/-- A descriptor is an element in the container, a style or skipped, and only one of them. -/
theorem length_rootTag?_add (x : Descriptor) :
    x.rootTag?.toList.length + x.css?.toList.length + (if x.isSkipped then 1 else 0) = 1 := by
  cases x with
  | invalid value => rfl
  | element r =>
    rw [rootTag?_element, isSkipped_element]
    cases r.kind? <;> rfl
  | directive s =>
    rw [rootTag?, isSkipped, css?]
    by_cases hbreak : s = "br" ∨ s = "hr"
    · rcases hbreak with rfl | rfl <;> decide
    · rw [if_neg hbreak]
      cases styleText? s <;> rfl

end Descriptor

variable {settings : Settings} {xs : List Descriptor}

theorem map_tag?_flatMap_shown_root (settings : Settings) (xs : List Descriptor) :
    (xs.flatMap (Descriptor.shown settings .root)).map Rose.tag? =
      (xs.filterMap Descriptor.rootTag?).map some := by
  rw [List.map_flatMap]
  exact flatMap_eq_map_filterMap (Descriptor.map_tag?_shown_root settings) xs

/-- Every descriptor is an element in the container, a style or skipped. -/
theorem length_eq_add (xs : List Descriptor) :
    xs.length = (xs.filterMap Descriptor.rootTag?).length +
      (xs.filterMap Descriptor.css?).length + xs.countP Descriptor.isSkipped := by
  induction xs with
  | nil => rfl
  | cons x xs ih =>
    have hx := x.length_rootTag?_add
    rw [List.length_cons, List.countP_cons, ih]
    cases htag : x.rootTag? <;> cases hcss : x.css? <;>
      simp only [htag, hcss, Option.toList, List.length_cons, List.length_nil] at hx <;>
      simp only [htag, hcss, List.filterMap_cons, List.length_cons] <;> omega

/-! ## The places of a page -/

theorem Skeleton.map_tag? {t : Tree} (h : Skeleton settings t) :
    ([⟨1⟩, ⟨2⟩, ⟨3⟩, ⟨4⟩] : List NodeId).map t.tag? =
      [some "html", some "head", some "body", some "div"] := by
  have htag : ∀ {n tag attributes selectedIndex},
      t.label? n = some (.element tag attributes selectedIndex) → t.tag? n = some tag :=
    fun hl => tag?_of_view h.toWellFormed (h.toWellLinked.view_eq_element_iff.2 ⟨hl, rfl⟩)
  simp only [List.map_cons, List.map_nil, htag h.label?_html, htag h.label?_head,
    htag h.label?_body, htag h.label?_container]

namespace Draft.Shows

variable {d : Draft} (h : d.Shows settings fun place =>
  xs.flatMap (Descriptor.shown settings place))
include h

/-- The elements in the container have the tags that the descriptors give. -/
theorem map_tag?_root : (d.document.tree.children d.root).map d.document.tree.tag? =
    (xs.filterMap Descriptor.rootTag?).map some := by
  have hroot : d.root = Place.root.node := h.parent_eq .root
  rw [hroot, h.skeleton.toWellLinked.map_children_eq (tag?_of_view h.skeleton.toWellFormed),
    h.childViews_eq, map_tag?_flatMap_shown_root]

theorem childViews_head : d.document.tree.childViews d.document.head =
    (xs.filterMap Descriptor.css?).map styleRose := by
  have hhead : d.document.head = Place.head.node := h.parent_eq .head
  rw [hhead, h.childViews_eq, flatMap_shown_head]

/-- The head holds nothing but styles. -/
theorem tag?_of_mem_head {n : NodeId} (hn : n ∈ d.document.tree.children d.document.head) :
    d.document.tree.tag? n = some "style" := by
  obtain ⟨r, hr⟩ := h.skeleton.toWellLinked.exists_view_of_mem hn
  have hmem : r ∈ d.document.tree.childViews d.document.head := List.mem_filterMap.2 ⟨n, hn, hr⟩
  rw [h.childViews_head] at hmem
  obtain ⟨css, -, rfl⟩ := List.mem_map.1 hmem
  exact tag?_of_view h.skeleton.toWellFormed hr

/-- The styles in the head have the texts that the descriptors give. -/
theorem map_textContent_head :
    (d.document.tree.children d.document.head).map d.document.tree.textContent =
      xs.filterMap Descriptor.css? := by
  have hlinked := h.skeleton.toWellLinked
  have htext : ∀ {n r}, d.document.tree.view n = some r →
      d.document.tree.textContent n = r.textContent := by
    intro n r hr
    rw [Tree.textContent_eq hlinked, hr]
    rfl
  have hstyle : Rose.textContent ∘ styleRose = id := by
    funext css
    simp [styleRose, Rose.textContent, Rose.textContents]
  rw [hlinked.map_children_eq htext, h.childViews_head, List.map_map, hstyle, List.map_id]

end Draft.Shows

/-! ## Pages -/

/-- **Every descriptor is accounted for once, in order.** The page is its skeleton and two lists:
the elements in the container, with the tags that the descriptors give, and the styles in the head,
with the texts that they give. Each descriptor is in one of them or skipped. -/
theorem compile_accounts (settings : Settings) (xs : List Descriptor) :
    let p := (compile settings xs).1
    let t := p.document.tree
    t.children .root = [p.document.html] ∧
      t.children p.document.html = [p.document.head, p.document.body] ∧
      t.children p.document.body = [p.root] ∧
      [p.document.html, p.document.head, p.document.body, p.root].map t.tag? =
        [some "html", some "head", some "body", some "div"] ∧
      p.rootChildren.map t.tag? = (xs.filterMap Descriptor.rootTag?).map some ∧
      t.children p.document.head = p.styleNodes ∧
      (∀ n ∈ t.children p.document.head, t.tag? n = some "style") ∧
      p.styleNodes.map t.textContent = xs.filterMap Descriptor.css? ∧
      xs.length = p.rootChildren.length + p.styleNodes.length +
        xs.countP Descriptor.isSkipped := by
  intro p t
  have hshows := Draft.shows_after settings xs
  have hwhole := Draft.whole_after settings xs
  have hhead : p.document.head = ⟨2⟩ := hshows.parent_eq .head
  have hroot : p.root = ⟨4⟩ := hshows.parent_eq .root
  have hhtml : p.document.html = ⟨1⟩ := hshows.html_eq
  have hbody : p.document.body = ⟨3⟩ := hwhole.body_eq
  have htags : p.rootChildren.map t.tag? = (xs.filterMap Descriptor.rootTag?).map some :=
    hshows.map_tag?_root
  have hstyles : ∀ n ∈ t.children p.document.head, t.tag? n = some "style" :=
    fun n hn => hshows.tag?_of_mem_head hn
  have hnodes : p.styleNodes = t.children p.document.head :=
    List.filter_eq_self.2 fun n hn => beq_iff_eq.2 (hstyles n hn)
  have htexts : p.styleNodes.map t.textContent = xs.filterMap Descriptor.css? := by
    rw [hnodes]
    exact hshows.map_textContent_head
  have hrootLength : p.rootChildren.length = (xs.filterMap Descriptor.rootTag?).length := by
    simpa using congrArg List.length htags
  have hstyleLength : p.styleNodes.length = (xs.filterMap Descriptor.css?).length := by
    simpa using congrArg List.length htexts
  refine ⟨?_, ?_, ?_, ?_, htags, hnodes.symm, hstyles, htexts, ?_⟩
  · rw [hhtml]
    exact hwhole.children_root
  · rw [hhtml, hhead, hbody]
    exact hshows.skeleton.children_html
  · rw [hbody, hroot]
    exact hshows.skeleton.children_body
  · rw [hhtml, hhead, hbody, hroot]
    exact hshows.skeleton.map_tag?
  · rw [hrootLength, hstyleLength]
    exact length_eq_add xs

/-- An array counts as a record without fields. -/
example (items : List Json) : (Descriptor.ofJson (.array items)).isSkipped = true := rfl

end PageBuilder
