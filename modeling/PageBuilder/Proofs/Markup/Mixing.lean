import PageBuilder.Proofs.Dom.Paths
import PageBuilder.Proofs.Markup.Indentation

/-!
# Texts apart from elements

An indented layout breaks lines around elements. A text that stands beside an element thereby gets
whitespace next to it, and a browser shows that. In an `Unmixed` node no text stands beside an
element, at whatever depth: then no line is broken next to a text (`Unmixed.isChain_pieces`). An
element with nothing but texts in it looks the same in every layout (`render_of_texts`).

What holds of the root of a tree, and of what is below whatever it holds of, holds of every node of
an attached tree (`view_induction`).
-/

namespace PageBuilder.Dom

open Markup

namespace Rose

/-- Whether a node is a text. -/
def isText : Rose → Bool
  | text _ => true
  | _ => false

/-- Below a node no text stands beside an element, and texts are only in elements with some tags. -/
inductive Unmixed (tags : List String) : Rose → Prop
  | text (s : String) : Unmixed tags (.text s)
  | document {children : List Rose} (helements : ∀ c ∈ children, c.isElement = true)
      (hchildren : ∀ c ∈ children, Unmixed tags c) : Unmixed tags (.document children)
  | elements {tag : String} {attributes : List (String × String)} {selectedIndex : Option ℕ}
      {children : List Rose} (hraw : rawTags.contains tag = false)
      (helements : ∀ c ∈ children, c.isElement = true)
      (hchildren : ∀ c ∈ children, Unmixed tags c) :
      Unmixed tags (.element tag attributes selectedIndex children)
  | texts {tag : String} {attributes : List (String × String)} {selectedIndex : Option ℕ}
      {children : List Rose} (htag : tag ∈ tags) (htexts : ∀ c ∈ children, c.isText = true) :
      Unmixed tags (.element tag attributes selectedIndex children)

variable {tags : List String} {r : Rose} {layout : Layout}

theorem Unmixed.child (h : Unmixed tags r) {c : Rose} (hc : c ∈ r.children) : Unmixed tags c := by
  cases h with
  | text s => cases hc
  | document helements hchildren => exact hchildren c hc
  | elements hraw helements hchildren => exact hchildren c hc
  | texts htag htexts =>
    have htext := htexts c hc
    cases c with
    | document | element => cases htext
    | text s => exact .text s

theorem isText_eq_false_of_isElement (h : r.isElement = true) : r.isText = false := by
  cases r with
  | element => rfl
  | document | text => cases h

theorem any_isElement_of_texts {cs : List Rose} (h : ∀ c ∈ cs, c.isText = true) :
    cs.any isElement = false := by
  rw [List.any_eq_false]
  intro c hc helement
  exact Bool.false_ne_true ((isText_eq_false_of_isElement helement).symm.trans (h c hc))

/-! ## Rendering -/

/-- Texts side by side look the same in every layout. -/
theorem renderAll_of_texts {cs : List Rose} (h : ∀ c ∈ cs, c.isText = true) (depth : ℕ)
    (mark : Option ℕ) :
    renderAll layout depth mark cs = String.join (cs.map fun c => escapeText c.ownText) := by
  induction cs generalizing mark with
  | nil => simp [renderAll]
  | cons c cs ih =>
    rw [List.forall_mem_cons] at h
    cases c with
    | document | element => cases h.1
    | text s => simp [renderAll, render, ownText, ih h.2]

/-- An element with nothing but texts in it looks the same in every layout. -/
theorem render_of_texts {tag : String} {attributes : List (String × String)}
    {selectedIndex : Option ℕ} {cs : List Rose} (h : ∀ c ∈ cs, c.isText = true)
    (layout layout' : Layout) (selected : Bool) :
    (element tag attributes selectedIndex cs).render layout 0 selected =
      (element tag attributes selectedIndex cs).render layout' 0 selected := by
  rw [render, render, renderAll_of_texts h, renderAll_of_texts h, any_isElement_of_texts h]
  rfl

/-- Where a text is, there are nothing but texts, in an element with one of the tags. -/
theorem Unmixed.of_text (h : Unmixed tags r) (htext : r.children.any isText = true) :
    ∃ tag attributes selectedIndex cs, r = element tag attributes selectedIndex cs ∧
      tag ∈ tags ∧ ∀ c ∈ cs, c.isText = true := by
  obtain ⟨c, hc, hctext⟩ := List.any_eq_true.1 htext
  cases h with
  | text s => cases hc
  | document helements | elements hraw helements =>
    rw [isText_eq_false_of_isElement (helements c hc)] at hctext
    cases hctext
  | texts htag htexts => exact ⟨_, _, _, _, rfl, htag, htexts⟩

end Rose

end PageBuilder.Dom

/-! ## Pieces -/

namespace PageBuilder.Markup.Piece

/-- Whether a piece is a stretch of text. -/
def isText : Piece → Bool
  | text _ => true
  | _ => false

/-- Whether a line is never broken before a piece. -/
def isTight : Piece → Bool
  | opening _ _ _ => false
  | closing _ spread => !spread
  | text _ => true

theorem lineBreak_of_isTight {p : Piece} (h : p.isTight = true) (unit : String) (depth : ℕ) :
    p.lineBreak unit depth = "" := by
  cases p with
  | opening => cases h
  | closing tag spread =>
    cases spread with
    | false => rfl
    | true => cases h
  | text s => rfl

/-- No line is broken between two pieces if one of them is a text. -/
def Close (p q : Piece) : Prop := p.isText = true ∨ q.isText = true → q.isTight = true

theorem isChain_close_of_isTight {p : Piece} {ps : List Piece} (h : ∀ q ∈ ps, q.isTight = true) :
    (p :: ps).IsChain Close := by
  induction ps generalizing p with
  | nil => exact .singleton p
  | cons q ps ih =>
    rw [List.forall_mem_cons] at h
    exact List.isChain_cons_cons.2 ⟨fun _ => h.1, ih h.2⟩

/-- Pieces that neither begin nor end with a text, without line breaks next to the texts in them. -/
structure Enclosed (ps : List Piece) : Prop where
  isChain : ps.IsChain Close
  head : ∀ p ∈ ps.head?, p.isText = false
  last : ∀ p ∈ ps.getLast?, p.isText = false

theorem Enclosed.nil : Enclosed [] := ⟨.nil, by simp, by simp⟩

theorem Enclosed.singleton {p : Piece} (h : p.isText = false) : Enclosed [p] :=
  ⟨.singleton p, by simpa using h, by simpa using h⟩

theorem Enclosed.append {ps qs : List Piece} (hp : Enclosed ps) (hq : Enclosed qs) :
    Enclosed (ps ++ qs) where
  isChain := by
    refine List.isChain_append.2 ⟨hp.isChain, hq.isChain, fun p hlast q hhead htext => ?_⟩
    rcases htext with htext | htext
    · exact absurd ((hp.last p hlast).symm.trans htext) Bool.false_ne_true
    · exact absurd ((hq.head q hhead).symm.trans htext) Bool.false_ne_true
  head := by
    intro p hhead
    rw [List.head?_append] at hhead
    rcases Option.or_eq_some_iff.1 hhead with h | ⟨-, h⟩
    · exact hp.head p h
    · exact hq.head p h
  last := by
    intro p hlast
    rw [List.getLast?_append] at hlast
    rcases Option.or_eq_some_iff.1 hlast with h | ⟨-, h⟩
    · exact hq.last p h
    · exact hp.last p h

/-- Two tags, with no line break before the second or before any piece between them. -/
theorem Enclosed.of_isTight {p q : Piece} {ps : List Piece} (hp : p.isText = false)
    (hq : q.isText = false) (h : ∀ x ∈ ps ++ [q], x.isTight = true) :
    Enclosed (p :: (ps ++ [q])) where
  isChain := isChain_close_of_isTight h
  head := by simpa using hp
  last := by
    rw [← List.cons_append, List.getLast?_concat]
    simpa using hq

end PageBuilder.Markup.Piece

namespace PageBuilder.Dom

open Markup

namespace Rose

variable {tags : List String} {r : Rose}

theorem enclosed_piecesAll {cs : List Rose}
    (h : ∀ c ∈ cs, ∀ selected, Piece.Enclosed (c.pieces selected)) (mark : Option ℕ) :
    Piece.Enclosed (piecesAll mark cs) := by
  induction cs generalizing mark with
  | nil =>
    rw [piecesAll]
    exact .nil
  | cons c cs ih =>
    rw [List.forall_mem_cons] at h
    rw [piecesAll]
    exact (h.1 _).append (ih h.2 _)

/-- What holds of the pieces of each node holds of the pieces of nodes side by side. -/
theorem forall_mem_piecesAll {Q : Piece → Prop} {cs : List Rose}
    (h : ∀ c ∈ cs, ∀ selected, ∀ q ∈ c.pieces selected, Q q) (mark : Option ℕ) :
    ∀ q ∈ piecesAll mark cs, Q q := by
  induction cs generalizing mark with
  | nil =>
    rw [piecesAll]
    simp
  | cons c cs ih =>
    rw [List.forall_mem_cons] at h
    rw [piecesAll, List.forall_mem_append]
    exact ⟨h.1 _, ih h.2 _⟩

theorem isTight_of_mem_piecesAll {cs : List Rose} (h : ∀ c ∈ cs, c.isText = true)
    (mark : Option ℕ) : ∀ p ∈ piecesAll mark cs, p.isTight = true := by
  refine forall_mem_piecesAll (fun c hc selected => ?_) mark
  have htext := h c hc
  cases c with
  | document | element => cases htext
  | text s => simp [pieces, Piece.isTight]

/-- An element with nothing but texts in it has no line breaks in it. -/
theorem enclosed_pieces_of_texts {tag : String} {attributes : List (String × String)}
    {selectedIndex : Option ℕ} {cs : List Rose} (h : ∀ c ∈ cs, c.isText = true) (selected : Bool) :
    Piece.Enclosed ((element tag attributes selectedIndex cs).pieces selected) := by
  have hclosing : (Piece.closing tag (cs.any isElement)).isTight = true := by
    rw [any_isElement_of_texts h]
    rfl
  rw [pieces]
  split
  · exact .singleton rfl
  · refine .of_isTight rfl rfl (List.forall_mem_append.2 ⟨?_, by simpa using hclosing⟩)
    split
    · simp [Piece.isTight]
    · exact isTight_of_mem_piecesAll h selectedIndex

/-- **No line is broken next to a text, in an element below which no text stands beside an
element.** -/
theorem Unmixed.enclosed_pieces (h : Unmixed tags r) (hr : r.isElement = true) (selected : Bool) :
    Piece.Enclosed (r.pieces selected) := by
  induction h generalizing selected with
  | text | document => cases hr
  | texts htag htexts => exact enclosed_pieces_of_texts htexts selected
  | elements hraw helements hchildren ih =>
    rw [pieces, hraw]
    split
    · exact .singleton rfl
    · have hinside := enclosed_piecesAll fun c hc => ih c hc (helements c hc)
      exact Piece.Enclosed.append (.singleton rfl) ((hinside _).append (.singleton rfl))

theorem Unmixed.isChain_pieces (h : Unmixed tags r) (selected : Bool) :
    (r.pieces selected).IsChain Piece.Close := by
  cases h with
  | text s =>
    rw [pieces]
    exact .singleton _
  | document helements hchildren =>
    rw [pieces]
    exact (enclosed_piecesAll fun c hc => (hchildren c hc).enclosed_pieces (helements c hc)) none
      |>.isChain
  | elements hraw helements hchildren =>
    exact ((Unmixed.elements hraw helements hchildren).enclosed_pieces rfl selected).isChain
  | texts htag htexts => exact (enclosed_pieces_of_texts htexts selected).isChain

end Rose

/-! ## Below the root -/

namespace Tree

variable {t : Tree} {n : NodeId} {r : Rose}

/-- Whether a node has a child that is a text. -/
def hasTextChild (t : Tree) (n : NodeId) : Bool :=
  (t.children n).any fun c => ((t.get? c).bind Node.text?).isSome

theorem isText_of_view (h : t.WellLinked) (hr : t.view n = some r) :
    ((t.get? n).bind Node.text?).isSome = r.isText := by
  obtain ⟨node, hn, rfl⟩ := h.exists_get?_of_view hr
  rw [hn, Option.bind_some, Node.text?]
  cases node.content <;> rfl

theorem hasTextChild_eq (h : t.WellLinked) (n : NodeId) :
    t.hasTextChild n = (t.childViews n).any Rose.isText :=
  h.any_children_eq (isText_of_view h) n

namespace WellLinked

variable (h : t.WellLinked)
include h

/-- A parent shows something. -/
theorem exists_view_of_parent? {p : NodeId} (hn : t.parent? n = some p) :
    ∃ r, t.view p = some r :=
  Option.isSome_iff_exists.1 (h.isSome_view (get?_isSome_iff.2 (h.parent_lt hn)))

/-- What holds of the root, and of what is right below whatever it holds of, holds of every node. -/
theorem view_induction (ha : t.Attached) {P : Rose → Prop}
    (hroot : ∀ r, t.view .root = some r → P r) (hdown : ∀ r, P r → ∀ c ∈ r.children, P c)
    (hr : t.view n = some r) : P r := by
  obtain ⟨path, hpath⟩ : ∃ path, t.descend? .root path = some n := by
    obtain ⟨node, hn, -⟩ := h.exists_get?_of_view hr
    exact h.exists_descend? ha (lt_size_of_get? hn)
  induction path using List.reverseRecOn generalizing n r with
  | nil =>
    obtain rfl : NodeId.root = n := Option.some.inj hpath
    exact hroot r hr
  | append_singleton path i ih =>
    obtain ⟨p, hp, hi, hparent⟩ := h.exists_of_descend?_concat hpath
    obtain ⟨above, habove⟩ := h.exists_view_of_parent? hparent
    refine hdown above (ih habove hp) r ?_
    rw [← h.childViews_eq_children habove]
    exact List.mem_filterMap.2 ⟨n, List.mem_of_getElem? hi, hr⟩

end WellLinked

end Tree

end PageBuilder.Dom
