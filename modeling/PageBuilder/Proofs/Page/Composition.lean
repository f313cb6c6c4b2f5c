import PageBuilder.Page.Compile
import PageBuilder.Proofs.Page.Drafts

/-!
# Pages are composed

A page is put together descriptor by descriptor in one tree, yet no descriptor has to do with
another: what a page shows is what its descriptors show by themselves, one after another
(`compile_shows`), and so are its diagnostics (`compile_diagnostics`). The page of two descriptions
in a row is therefore composed of the pages of the two (`compile_append`), whatever is wrong with
either.
-/

namespace PageBuilder

open Dom

variable {settings : Settings} {layout : Markup.Layout} {xs ys : List Descriptor}

/-- The markup in the container of a page. -/
def Page.rootMarkup (p : Page) (layout : Markup.Layout) : String :=
  Markup.inner layout p.document.tree p.root

/-- The markup in the head of a page. -/
def Page.headMarkup (p : Page) (layout : Markup.Layout) : String :=
  Markup.inner layout p.document.tree p.document.head

/-- The skeleton of a page, and what is shown in each place of it. -/
def pageRose (settings : Settings) (shown : Place → List Rose) : Rose :=
  .element "html" [] none
    [.element "head" [] none (shown .head),
      .element "body" [] none [.element "div" [("id", settings.rootId)] none (shown .root)]]

theorem Draft.Shows.view_html {d : Draft} {shown : Place → List Rose} (h : d.Shows settings shown) :
    d.document.tree.view d.document.html = some (pageRose settings shown) := by
  have hlinked := h.skeleton.toWellLinked
  have hhead := hlinked.view_eq_element_iff.2 ⟨h.skeleton.label?_head, h.childViews_eq .head⟩
  have hroot := hlinked.view_eq_element_iff.2 ⟨h.skeleton.label?_container, h.childViews_eq .root⟩
  have hbelow : d.document.tree.childViews ⟨3⟩ =
      [.element "div" [("id", settings.rootId)] none (shown .root)] := by
    rw [Tree.childViews, h.skeleton.children_body, List.filterMap_cons_some hroot,
      List.filterMap_nil]
  have hbody := hlinked.view_eq_element_iff.2 ⟨h.skeleton.label?_body, hbelow⟩
  rw [h.html_eq]
  refine hlinked.view_eq_element_iff.2 ⟨h.skeleton.label?_html, ?_⟩
  rw [Tree.childViews, h.skeleton.children_html, List.filterMap_cons_some hhead,
    List.filterMap_cons_some hbody, List.filterMap_nil]

/-- A page that shows something in each place, and nothing else but its skeleton. -/
structure Page.Shows (settings : Settings) (p : Page) (shown : Place → List Rose) : Prop where
  wellFormed : p.document.tree.WellFormed
  view_html : p.document.tree.view p.document.html = some (pageRose settings shown)
  childViews_head : p.document.tree.childViews p.document.head = shown .head
  childViews_root : p.document.tree.childViews p.root = shown .root

/-- **What a page shows** is in each place what the descriptors show there by themselves. -/
theorem compile_shows (settings : Settings) (xs : List Descriptor) :
    (compile settings xs).1.Shows settings fun place =>
      xs.flatMap (Descriptor.shown settings place) := by
  have hshows := Draft.shows_after settings xs
  have hhead : (compile settings xs).1.document.head = ⟨2⟩ := hshows.parent_eq .head
  have hroot : (compile settings xs).1.root = ⟨4⟩ := hshows.parent_eq .root
  exact
    { wellFormed := hshows.skeleton.toWellFormed
      view_html := hshows.view_html
      childViews_head := hhead ▸ hshows.childViews_eq .head
      childViews_root := hroot ▸ hshows.childViews_eq .root }

/-! ## Markup -/

theorem headMarkup_compile (settings : Settings) (layout : Markup.Layout) (xs : List Descriptor) :
    (compile settings xs).1.headMarkup layout = String.join
      ((xs.flatMap (Descriptor.shown settings .head)).map (Rose.render layout 0 false)) := by
  have hshows := compile_shows settings xs
  rw [Page.headMarkup, Markup.inner_eq hshows.wellFormed, hshows.childViews_head]

theorem rootMarkup_compile (settings : Settings) (layout : Markup.Layout) (xs : List Descriptor) :
    (compile settings xs).1.rootMarkup layout = String.join
      ((xs.flatMap (Descriptor.shown settings .root)).map (Rose.render layout 0 false)) := by
  have hshows := compile_shows settings xs
  rw [Page.rootMarkup, Markup.inner_eq hshows.wellFormed, hshows.childViews_root]

/-! ## Diagnostics -/

/-- The diagnostics of a page are the problems of its descriptors, in order. -/
theorem compile_diagnostics (settings : Settings) (xs : List Descriptor) :
    (compile settings xs).1.diagnostics = diagnosticsFrom settings 1 xs :=
  Draft.diagnostics_after settings xs

/-- Positions count on from wherever they start. -/
theorem diagnosticsFrom_add (settings : Settings) (index k : ℕ) (xs : List Descriptor) :
    diagnosticsFrom settings (index + k) xs =
      (diagnosticsFrom settings index xs).map fun d => { d with index := d.index + k } := by
  induction xs generalizing index with
  | nil => rfl
  | cons x xs ih =>
    rw [diagnosticsFrom, diagnosticsFrom, List.map_append, List.map_map, Nat.add_right_comm, ih]
    rfl

theorem diagnosticsFrom_append (settings : Settings) (index : ℕ) (xs ys : List Descriptor) :
    diagnosticsFrom settings index (xs ++ ys) =
      diagnosticsFrom settings index xs ++ diagnosticsFrom settings (index + xs.length) ys := by
  induction xs generalizing index with
  | nil => rfl
  | cons x xs ih =>
    rw [List.cons_append, diagnosticsFrom, ih, diagnosticsFrom, List.append_assoc, List.length_cons,
      Nat.add_assoc, Nat.add_comm 1]

/-- A diagnostic is a problem of the descriptor at its position. -/
theorem mem_diagnosticsFrom_iff {index : ℕ} {d : Diagnostic} :
    d ∈ diagnosticsFrom settings index xs ↔
      ∃ i x, xs[i]? = some x ∧ d.index = index + i ∧ d.problem ∈ x.problems settings := by
  induction xs generalizing index with
  | nil => simp [diagnosticsFrom]
  | cons x xs ih =>
    rw [diagnosticsFrom, List.mem_append, ih, List.mem_map]
    constructor
    · rintro (⟨problem, hproblem, rfl⟩ | ⟨i, y, hy, hindex, hproblem⟩)
      · exact ⟨0, x, rfl, rfl, hproblem⟩
      · exact ⟨i + 1, y, hy, by omega, hproblem⟩
    · rintro ⟨i, y, hy, hindex, hproblem⟩
      cases i with
      | zero =>
        cases hy
        exact .inl ⟨d.problem, hproblem, congrArg (Diagnostic.mk · d.problem) hindex.symm⟩
      | succ i => exact .inr ⟨i, y, hy, by omega, hproblem⟩

/-! ## Two descriptions in a row -/

/-- **The page of two descriptions in a row is composed of the pages of the two**: what is in the
container, what is in the head, and the diagnostics, whose positions count on. -/
theorem compile_append (settings : Settings) (layout : Markup.Layout) (xs ys : List Descriptor) :
    (compile settings (xs ++ ys)).1.rootMarkup layout =
        (compile settings xs).1.rootMarkup layout ++ (compile settings ys).1.rootMarkup layout ∧
      (compile settings (xs ++ ys)).1.headMarkup layout =
        (compile settings xs).1.headMarkup layout ++ (compile settings ys).1.headMarkup layout ∧
      (compile settings (xs ++ ys)).1.diagnostics =
        (compile settings xs).1.diagnostics ++ (compile settings ys).1.diagnostics.map fun d =>
          { d with index := d.index + xs.length } := by
  refine ⟨?_, ?_, ?_⟩
  · rw [rootMarkup_compile, rootMarkup_compile, rootMarkup_compile, List.flatMap_append,
      List.map_append, String.join_append]
  · rw [headMarkup_compile, headMarkup_compile, headMarkup_compile, List.flatMap_append,
      List.map_append, String.join_append]
  · rw [compile_diagnostics, compile_diagnostics, compile_diagnostics, diagnosticsFrom_append,
      diagnosticsFrom_add]

end PageBuilder
