import PageBuilder.Proofs.Markup.Mixing
import PageBuilder.Proofs.Page.RoundTrip
import PageBuilder.Proofs.Page.Growth

/-!
# Texts on pages

Whatever a description asks for, and however far it can be followed, the page is made of elements
that hold elements and of elements that hold a text (`unmixed_view`). No layout puts whitespace next
to a text, and an element with a text in it is written the same in every layout (`compile_spacing`).
-/

namespace PageBuilder

open Dom Markup

/-- The elements of a page in which texts stand. -/
def textTags : List String := ["p", "button", "a", "option", "style"]

variable {settings : Settings} {xs : List Descriptor} {tag : String} {r : Rose}

/-! ## Parts -/

theorem AtMostText.isText {cs : List Rose} (h : AtMostText cs) : ∀ c ∈ cs, c.isText = true := by
  rcases h with rfl | ⟨s, rfl⟩
  · simp
  · simp [Rose.isText]

theorem Shaped.unmixed_texts (h : Shaped tag AtMostText r) (htag : tag ∈ textTags) :
    Rose.Unmixed textTags r := by
  cases r with
  | document | text => cases h
  | element =>
    obtain ⟨rfl, -, hchildren⟩ := h
    exact .texts htag hchildren.isText

theorem Shaped.unmixed_empty (h : Shaped tag (· = []) r) (hraw : rawTags.contains tag = false) :
    Rose.Unmixed textTags r := by
  cases r with
  | document | text => cases h
  | element =>
    obtain ⟨rfl, -, rfl⟩ := h
    exact .elements hraw (by simp) (by simp)

theorem Shaped.unmixed_options (h : Shaped tag Options r) (hraw : rawTags.contains tag = false) :
    Rose.Unmixed textTags r := by
  cases r with
  | document | text => cases h
  | element =>
    obtain ⟨rfl, -, hchildren⟩ := h
    refine .elements hraw (fun c hc => ?_) fun c hc => ?_
    · obtain ⟨label, rfl⟩ := hchildren c hc
      rfl
    · obtain ⟨label, rfl⟩ := hchildren c hc
      exact .texts (by decide) (AtMostText.isText (.inr ⟨label, rfl⟩))

theorem unmixed_ofRecord (settings : Settings) (kind : ElementKind) (r : Record) :
    Rose.Unmixed textTags (Part.ofRecord settings kind r).rose := by
  cases kind with
  | text => exact (r.shaped_text_or_button .text (.inl rfl) settings).unmixed_texts (by decide)
  | button => exact (r.shaped_text_or_button .button (.inr rfl) settings).unmixed_texts (by decide)
  | link => exact (r.shaped_link settings).unmixed_texts (by decide)
  | select => exact (r.shaped_select settings).unmixed_options (by decide)
  | image => exact (r.shaped_image settings).unmixed_empty (by decide)
  | input => exact (r.shaped_input settings).unmixed_empty (by decide)
  | div => exact (r.shaped_div settings).unmixed_empty (by decide)

theorem unmixed_ofDirective (s : String) : Rose.Unmixed textTags (Part.ofDirective s).rose := by
  rw [Part.ofDirective]
  split
  · rename_i hbreak
    rcases hbreak with rfl | rfl
    · exact .elements (by decide) (by simp) (by simp)
    · exact .elements (by decide) (by simp) (by simp)
  · cases styleText? s with
    | none =>
      show Rose.Unmixed textTags (.element "p" [] none [.text s])
      exact .texts (by decide) (AtMostText.isText (.inr ⟨s, rfl⟩))
    | some css =>
      show Rose.Unmixed textTags (styleRose css)
      exact .texts (by decide) (AtMostText.isText (.inr ⟨css, rfl⟩))

/-- What a descriptor shows is unmixed. -/
theorem unmixed_of_mem_shown {place : Place} {x : Descriptor} (hr : r ∈ x.shown settings place) :
    Rose.Unmixed textTags r := by
  obtain ⟨part, hpart, rfl⟩ := exists_part?_of_mem_shown hr
  cases x with
  | directive s =>
    cases hpart
    exact unmixed_ofDirective s
  | element r =>
    obtain ⟨kind, -, rfl⟩ := Option.map_eq_some_iff.1 hpart
    exact unmixed_ofRecord settings kind r
  | invalid value => cases hpart

/-! ## Pages -/

theorem unmixed_shownPage (settings : Settings) (xs : List Descriptor) :
    Rose.Unmixed textTags (shownPage settings xs) := by
  have hshown : ∀ place, ∀ r ∈ xs.flatMap (Descriptor.shown settings place),
      r.isElement = true ∧ Rose.Unmixed textTags r := by
    intro place r hr
    obtain ⟨x, -, hx⟩ := List.mem_flatMap.1 hr
    exact ⟨isElement_of_mem_shown hx, unmixed_of_mem_shown hx⟩
  have hplace : ∀ {tag attributes} place, rawTags.contains tag = false →
      Rose.Unmixed textTags
        (.element tag attributes none (xs.flatMap (Descriptor.shown settings place))) :=
    fun place hraw => .elements hraw (fun r hr => (hshown place r hr).1)
      fun r hr => (hshown place r hr).2
  refine .elements (by decide) (by simp [Rose.isElement]) ?_
  simp only [List.forall_mem_cons]
  refine ⟨hplace .head (by decide), .elements (by decide) (by simp [Rose.isElement]) ?_, by simp⟩
  simp only [List.forall_mem_cons]
  exact ⟨hplace .root (by decide), by simp⟩

theorem view_root_compile (settings : Settings) (xs : List Descriptor) :
    (compile settings xs).1.document.tree.view .root =
      some (.document [shownPage settings xs]) := by
  have hwhole := Draft.whole_after settings xs
  have hshows := Draft.shows_after settings xs
  have hlinked := hshows.skeleton.toWellLinked
  have hhtml := hshows.view_html
  rw [hshows.html_eq] at hhtml
  have hlabel : (Draft.after settings xs).document.tree.label? .root = some .document :=
    hlinked.label?_eq_document_iff.2 rfl
  show (Draft.after settings xs).document.tree.view .root = _
  rw [hlinked.view_eq, hlabel, Tree.childViews, hwhole.children_root,
    List.filterMap_cons_some hhtml]
  rfl

/-- **On a page, no text stands beside an element.** -/
theorem unmixed_view {n : NodeId} (hr : (compile settings xs).1.document.tree.view n = some r) :
    Rose.Unmixed textTags r := by
  have hlinked := (Draft.reachable_after settings xs).wellFormed.toWellLinked
  refine hlinked.view_induction (Draft.attached_after settings xs) (fun r hroot => ?_)
    (fun r h c hc => h.child hc) hr
  cases (view_root_compile settings xs).symm.trans hroot
  refine .document (by simp [shownPage, pageRose, Rose.isElement]) fun c hc => ?_
  rw [List.mem_singleton.1 hc]
  exact unmixed_shownPage settings xs

/-- A node with a text in it holds nothing but texts, and its tag is one of few. -/
theorem exists_view_of_hasTextChild {n : NodeId}
    (htext : (compile settings xs).1.document.tree.hasTextChild n = true) :
    ∃ tag attributes selectedIndex children,
      (compile settings xs).1.document.tree.view n =
          some (.element tag attributes selectedIndex children) ∧
        tag ∈ textTags ∧ ∀ c ∈ children, c.isText = true := by
  have hlinked := (Draft.reachable_after settings xs).wellFormed.toWellLinked
  obtain ⟨c, hc, -⟩ := List.any_eq_true.1 htext
  obtain ⟨r, hn⟩ := hlinked.exists_view_of_parent? (hlinked.mem_children_iff.1 hc)
  replace htext := (Tree.hasTextChild_eq hlinked n).symm.trans htext
  rw [hlinked.childViews_eq_children hn] at htext
  obtain ⟨tag, attributes, selectedIndex, children, rfl, hr⟩ := (unmixed_view hn).of_text htext
  exact ⟨tag, attributes, selectedIndex, children, hn, hr⟩

/-- **Layouts differ away from texts only.** No element of a page holds both a text and an element.
Whatever element holds a text is therefore written the same in every layout, and between two pieces
of markup of which one is a text nothing is ever inserted. -/
theorem compile_spacing (settings : Settings) (xs : List Descriptor) (unit : String) :
    let t := (compile settings xs).1.document.tree
    (∀ n, ¬ (t.hasTextChild n = true ∧ t.hasElementChild n = true)) ∧
    (∀ n, t.hasTextChild n = true →
      (∃ tag ∈ textTags, t.tag? n = some tag) ∧
        outer (.indented unit) t n = outer .compact t n) ∧
    ∀ n, outer .compact t n = Piece.compact (pieces t n) ∧
      outer (.indented unit) t n = Piece.indented unit 0 (pieces t n) ∧
      (pieces t n).IsChain fun p q =>
        p.isText = true ∨ q.isText = true → ∀ depth, q.lineBreak unit depth = "" := by
  intro t
  have hwf : t.WellFormed := (Draft.reachable_after settings xs).wellFormed
  refine ⟨?_, ?_, fun n => ⟨outer_compact_eq hwf n, outer_indented_eq hwf n unit, ?_⟩⟩
  · rintro n ⟨htext, helement⟩
    obtain ⟨tag, attributes, selectedIndex, children, hn, -, htexts⟩ :=
      exists_view_of_hasTextChild htext
    rw [hasElementChild_eq hwf, hwf.toWellLinked.childViews_eq_children hn] at helement
    exact absurd ((Rose.any_isElement_of_texts htexts).symm.trans helement) Bool.false_ne_true
  · intro n htext
    obtain ⟨tag, attributes, selectedIndex, children, hn, htag, htexts⟩ :=
      exists_view_of_hasTextChild htext
    refine ⟨⟨tag, htag, tag?_of_view hwf hn⟩, ?_⟩
    rw [outer_eq hwf, outer_eq hwf, hn]
    exact Rose.render_of_texts htexts _ _ false
  · rw [pieces]
    cases hn : t.view n with
    | none => exact .nil
    | some r =>
      refine ((unmixed_view hn).isChain_pieces false).imp fun p q hclose htext depth => ?_
      exact Piece.lineBreak_of_isTight (hclose htext) unit depth

/-- A style, a paragraph with a line break in its text, and a select control. -/
def samplePage : List Descriptor :=
  [.directive "css: a > b {}", .directive "1\n2",
    .element ⟨[("type", .string "select"), ("options", .array [.string "one", .null])]⟩]

/-- Lines are broken around the elements, and the texts stay as they are. -/
theorem compile_spacing_samplePage :
    let t := (compile {} samplePage).1.document.tree
    t.hasTextChild ⟨7⟩ = true ∧ t.tag? ⟨7⟩ = some "p" ∧
      outer (.indented "\t") t ⟨7⟩ = outer .compact t ⟨7⟩ ∧
      outer (.indented "\t") t ⟨4⟩ =
        "<div id=\"root\">\n\t<p>1\n2</p>\n\t<select>\n\t\t<option selected>one</option>" ++
          "\n\t</select>\n</div>" := by
  have htext : (compile {} samplePage).1.document.tree.hasTextChild ⟨7⟩ = true := by decide +kernel
  obtain ⟨-, hsame, -⟩ := compile_spacing {} samplePage "\t"
  exact ⟨htext, by decide +kernel, (hsame ⟨7⟩ htext).2, by decide +kernel⟩

end PageBuilder
