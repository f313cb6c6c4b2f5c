import PageBuilder.Proofs.Dom.Histories
import PageBuilder.Proofs.Markup.Roses
import PageBuilder.Text.Characters

/-!
# Indented markup

Markup is a sequence of pieces: start tags, end tags and stretches of text (`Rose.pieces`). On one
line it is these pieces and nothing else (`compact_pieces`). An indented layout breaks the line in
front of some of them, and which ones, and how deep, can be told from the pieces alone: the depth of
a tag is the number of elements that are open around it, which `Piece.indented` counts as it goes
along (`indented_pieces`).

`outer_eq_pieces` says both of the markup of every node, and that line breaks and blank indentation
are all that tells the two layouts apart.
-/

namespace PageBuilder.Markup

open Dom Text

/-- A stretch of markup. -/
inductive Piece where
  /-- The start tag of an element. -/
  | opening (tag : String) (attributes : List (String × String)) (selected : Bool)
  /-- The end tag of an element, and whether an element is among its children. -/
  | closing (tag : String) (spread : Bool)
  /-- What is written between tags. -/
  | text (s : String)

/-- A line feed and an indentation. -/
def lineFeed (unit : String) (depth : ℕ) : String :=
  "\n" ++ String.join (List.replicate depth unit)

namespace Piece

/-- A piece as it is written. -/
def written : Piece → String
  | opening tag attributes selected => openTag tag attributes selected
  | closing tag _ => endTag tag
  | text s => s

/-- How many elements are open after a piece, if `depth` are open before it. -/
def depthAfter (depth : ℕ) : Piece → ℕ
  | opening tag _ _ => if voidTags.contains tag then depth else depth + 1
  | closing _ _ => depth - 1
  | text _ => depth

/-- What is inserted before a piece, if `depth` elements are open before it. A closing element is
one of them, so it is itself one level less deep. -/
def lineBreak (unit : String) (depth : ℕ) : Piece → String
  | opening _ _ _ => if depth = 0 then "" else lineFeed unit depth
  | closing _ spread => if spread then lineFeed unit (depth - 1) else ""
  | text _ => ""

/-- Pieces on one line. -/
def compact (ps : List Piece) : String := String.join (ps.map written)

/-- Pieces with line breaks inserted, if `depth` elements are open before them. -/
def indented (unit : String) : ℕ → List Piece → String
  | _, [] => ""
  | depth, p :: ps =>
    p.lineBreak unit depth ++ p.written ++ indented unit (p.depthAfter depth) ps

@[simp] theorem compact_nil : compact [] = "" := rfl

@[simp] theorem compact_cons (p : Piece) (ps : List Piece) :
    compact (p :: ps) = p.written ++ compact ps := by
  simp [compact]

@[simp] theorem compact_append (ps qs : List Piece) :
    compact (ps ++ qs) = compact ps ++ compact qs := by
  simp [compact, String.join_append]

section Indented

variable (unit : String) (depth : ℕ) (ps : List Piece)

@[simp] theorem indented_opening (tag : String) (attributes : List (String × String))
    (selected : Bool) :
    indented unit depth (opening tag attributes selected :: ps) =
      (if depth = 0 then "" else lineFeed unit depth) ++ openTag tag attributes selected ++
        indented unit (if voidTags.contains tag then depth else depth + 1) ps := rfl

@[simp] theorem indented_closing (tag : String) (spread : Bool) :
    indented unit (depth + 1) (closing tag spread :: ps) =
      (if spread then lineFeed unit depth else "") ++ endTag tag ++ indented unit depth ps := rfl

@[simp] theorem indented_text (s : String) :
    indented unit depth (text s :: ps) = s ++ indented unit depth ps := by
  rw [indented, lineBreak, String.empty_append]
  rfl

end Indented

end Piece

@[simp] theorem lineBreak_indented (unit : String) (depth : ℕ) :
    Layout.lineBreak (.indented unit) depth = lineFeed unit depth := rfl

end PageBuilder.Markup

namespace PageBuilder.Dom.Rose

open Markup

mutual

/-- The pieces of a node. A void element has a start tag alone, a raw one nothing but text inside;
`selected` says whether a select control starts with the node. -/
def pieces : Bool → Rose → List Piece
  | _, document children => piecesAll none children
  | selected, element tag attributes selectedIndex children =>
    .opening tag attributes selected ::
      if voidTags.contains tag then []
      else
        (if rawTags.contains tag then [.text (String.join (children.map ownText))]
          else piecesAll selectedIndex children) ++ [.closing tag (children.any isElement)]
  | _, text s => [.text (escapeText s)]

/-- The pieces of nodes side by side; `mark` counts the options before the selected one. -/
def piecesAll : Option ℕ → List Rose → List Piece
  | _, [] => []
  | mark, r :: rest => pieces (r.isOption && mark == some 0) r ++ piecesAll (markAfter mark r) rest

end

mutual

/-- On one line, a node is its pieces. -/
theorem compact_pieces (depth : ℕ) (selected : Bool) (r : Rose) :
    Piece.compact (r.pieces selected) = r.render .compact depth selected := by
  cases r with
  | document children => rw [pieces, render, compact_piecesAll]
  | element tag attributes selectedIndex children =>
    rw [pieces, render, Piece.compact_cons]
    cases voidTags.contains tag
    · cases rawTags.contains tag
      · simp [Piece.written, Layout.lineBreak, compact_piecesAll (depth + 1)]
      · simp [Piece.written, Layout.lineBreak]
    · simp [Piece.written, Layout.lineBreak]
  | text s => simp [pieces, render, Piece.written]

theorem compact_piecesAll (depth : ℕ) (mark : Option ℕ) (rs : List Rose) :
    Piece.compact (piecesAll mark rs) = renderAll .compact depth mark rs := by
  cases rs with
  | nil => rw [piecesAll, renderAll, Piece.compact_nil]
  | cons r rest =>
    rw [piecesAll, renderAll, Piece.compact_append, compact_pieces depth, compact_piecesAll depth]

end

variable {unit : String}

mutual

/-- Laid out with line breaks, the pieces of a node are the node indented, whatever comes after it;
what comes after it is as deep as the node. -/
theorem indented_pieces (depth : ℕ) (selected : Bool) (r : Rose) (rest : List Piece) :
    Piece.indented unit depth (r.pieces selected ++ rest) =
      r.render (.indented unit) depth selected ++ Piece.indented unit depth rest := by
  cases r with
  | document children => rw [pieces, render, indented_piecesAll]
  | element tag attributes selectedIndex children =>
    rw [pieces, render, List.cons_append, Piece.indented_opening]
    cases voidTags.contains tag
    · cases rawTags.contains tag
      · simp [indented_piecesAll (depth + 1), String.append_assoc]
      · simp [String.append_assoc]
    · simp
  | text s => simp [pieces, render]

theorem indented_piecesAll (depth : ℕ) (mark : Option ℕ) (rs : List Rose) (rest : List Piece) :
    Piece.indented unit depth (piecesAll mark rs ++ rest) =
      renderAll (.indented unit) depth mark rs ++ Piece.indented unit depth rest := by
  cases rs with
  | nil => rw [piecesAll, renderAll, List.nil_append, String.empty_append]
  | cons r others =>
    rw [piecesAll, renderAll, List.append_assoc, indented_pieces depth, indented_piecesAll depth,
      String.append_assoc]

end

end PageBuilder.Dom.Rose

namespace PageBuilder.Markup

open Dom Text

/-! ## Blanks -/

/-- The characters of a text that are not blank. -/
def unblanked (s : String) : List Char := s.toList.filter (!isBlank ·)

theorem unblanked_append (s s' : String) : unblanked (s ++ s') = unblanked s ++ unblanked s' := by
  simp [unblanked]

theorem unblanked_eq_nil {s : String} (h : ∀ c ∈ s.toList, isBlank c = true) :
    unblanked s = [] := by
  simpa [unblanked, List.filter_eq_nil_iff] using h

theorem unblanked_lineFeed {unit : String} (h : ∀ c ∈ unit.toList, isBlank c = true) (depth : ℕ) :
    unblanked (lineFeed unit depth) = [] := by
  refine unblanked_eq_nil fun c hc => ?_
  rw [lineFeed, String.toList_append, String.toList_join, List.mem_append, List.mem_flatMap] at hc
  rcases hc with hc | ⟨s, hs, hc⟩
  · obtain rfl : c = '\n' := by simpa using hc
    decide
  · exact h c (List.eq_of_mem_replicate hs ▸ hc)

theorem Piece.unblanked_lineBreak {unit : String} (h : ∀ c ∈ unit.toList, isBlank c = true)
    (depth : ℕ) (p : Piece) : unblanked (p.lineBreak unit depth) = [] := by
  cases p with
  | opening =>
    rw [lineBreak]
    split
    · rfl
    · exact unblanked_lineFeed h depth
  | closing =>
    rw [lineBreak]
    split
    · exact unblanked_lineFeed h (depth - 1)
    · rfl
  | text => rfl

/-- Without blanks, both layouts are the same. -/
theorem Piece.unblanked_indented {unit : String} (h : ∀ c ∈ unit.toList, isBlank c = true)
    (depth : ℕ) (ps : List Piece) :
    unblanked (indented unit depth ps) = unblanked (compact ps) := by
  induction ps generalizing depth with
  | nil => rfl
  | cons p ps ih =>
    rw [indented, compact_cons, unblanked_append, unblanked_append, unblanked_append,
      unblanked_lineBreak h, List.nil_append, ih]

/-! ## Nodes and documents -/

/-- The pieces of the markup of a node. -/
def pieces (t : Tree) (n : NodeId) : List Piece := (t.view n).elim [] (Rose.pieces false)

theorem outer_compact_eq {t : Tree} (h : t.WellFormed) (n : NodeId) :
    outer .compact t n = Piece.compact (pieces t n) := by
  rw [outer_eq h, pieces]
  cases t.view n with
  | none => rfl
  | some r => exact (r.compact_pieces 0 false).symm

theorem outer_indented_eq {t : Tree} (h : t.WellFormed) (n : NodeId) (unit : String) :
    outer (.indented unit) t n = Piece.indented unit 0 (pieces t n) := by
  rw [outer_eq h, pieces]
  cases t.view n with
  | none => rfl
  | some r =>
    have hpieces : Piece.indented unit 0 (r.pieces false ++ []) =
        r.render (.indented unit) 0 false ++ "" := r.indented_pieces 0 false []
    rw [List.append_nil, String.append_empty] at hpieces
    exact hpieces.symm

/-- **An indented layout inserts line breaks before tags and does nothing else**: the markup of a
node is the same pieces in both layouts, and a document ends with one more line feed. If the
indentation is blank, the two differ by blanks alone. -/
theorem outer_eq_pieces {t : Tree} (h : t.Built) (unit : String) :
    (∀ n, outer .compact t n = Piece.compact (pieces t n) ∧
      outer (.indented unit) t n = Piece.indented unit 0 (pieces t n)) ∧
    (∀ d : Document, d.tree = t →
      page .compact d = doctype ++ Piece.compact (pieces t d.html) ∧
      page (.indented unit) d = doctype ++ Piece.indented unit 0 (pieces t d.html) ++ "\n") ∧
    ((∀ c ∈ unit.toList, isBlank c = true) →
      (∀ n, unblanked (outer (.indented unit) t n) = unblanked (outer .compact t n)) ∧
      ∀ d : Document, d.tree = t →
        unblanked (page (.indented unit) d) = unblanked (page .compact d)) := by
  have hwf := h.reachable.wellFormed
  have hcompact := outer_compact_eq hwf
  have hindented := fun n => outer_indented_eq hwf n unit
  refine ⟨fun n => ⟨hcompact n, hindented n⟩, ?_, fun hblank => ⟨fun n => ?_, ?_⟩⟩
  · rintro d rfl
    rw [page, page, hcompact, hindented]
    exact ⟨String.append_empty, rfl⟩
  · rw [hcompact, hindented, Piece.unblanked_indented hblank]
  · rintro d rfl
    have hend : unblanked "\n" = [] := rfl
    rw [page, page, hcompact, hindented]
    simp only [unblanked_append, Layout.ending, Piece.unblanked_indented hblank, hend]
    rfl

/-- A division with a select control, a style that holds an element beside its text, and a line
break. -/
def division : Tree :=
  Tree.new.after [.createElement "div", .createElement "select", .createElement "option",
    .createText "a<b", .createElement "style", .createText "p>q", .createElement "p",
    .createElement "br", .append ⟨3⟩ ⟨4⟩, .append ⟨2⟩ ⟨3⟩, .setSelectedIndex ⟨2⟩ 0,
    .append ⟨1⟩ ⟨2⟩, .append ⟨5⟩ ⟨6⟩, .append ⟨5⟩ ⟨7⟩, .append ⟨1⟩ ⟨5⟩, .append ⟨1⟩ ⟨8⟩]

/-- The element in the style is left out, and yet the end tag of the style is on its own line. -/
theorem outer_eq_pieces_division :
    division.Built ∧ (∀ c ∈ "\t".toList, isBlank c = true) ∧
      outer (.indented "\t") division ⟨1⟩ = Piece.indented "\t" 0 (pieces division ⟨1⟩) ∧
      outer (.indented "\t") division ⟨1⟩ =
        "<div>\n\t<select>\n\t\t<option selected>a&lt;b</option>\n\t</select>" ++
          "\n\t<style>p>q\n\t</style>\n\t<br />\n</div>" ∧
      unblanked (outer (.indented "\t") division ⟨1⟩) =
        unblanked (outer .compact division ⟨1⟩) := by
  have hbuilt : division.Built := .inl (Tree.Reachable.new.after _)
  have hblank : ∀ c ∈ "\t".toList, isBlank c = true := by
    intro c hc
    obtain rfl : c = '\t' := List.mem_singleton.1 hc
    rfl
  obtain ⟨hpieces, -, hunblanked⟩ := outer_eq_pieces hbuilt "\t"
  exact ⟨hbuilt, hblank, (hpieces ⟨1⟩).2, by decide +kernel, (hunblanked hblank).1 ⟨1⟩⟩

end PageBuilder.Markup
