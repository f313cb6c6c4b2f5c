import PageBuilder.Proofs.Markup.Mixing
import PageBuilder.Proofs.Markup.Reading

/-!
# Attributes in start tags

The start tags of a node's markup are its own and those of the elements below it. `Rose.AllTags` is
about the names of the attributes in all of them. It holds of an element if it holds of its own
names and of the elements in it (`allTags_container`); where there are only texts in it, and options
without attributes, the element's own names are all there is to it (`allTags_iff_of_isBare`).
-/

namespace PageBuilder.Markup

/-- The names of the attributes that a piece writes: a start tag has those of its element, and the
mark of a selected option (`toList_openTag`). -/
def Piece.attributeNames : Piece → List String
  | opening _ attributes selected => (markedAttributes attributes selected).map (·.1)
  | closing _ _ | text _ => []

end PageBuilder.Markup

namespace PageBuilder.Dom.Rose

open Markup

variable {P : List String → Prop} {r : Rose}

/-- The names of a node's attributes. -/
def attributeNames : Rose → List String
  | element _ attributes _ _ => attributes.map (·.1)
  | document _ | text _ => []

/-- Something holds of the attribute names in each start tag of a node's markup. -/
def AllTags (P : List String → Prop) (r : Rose) : Prop :=
  ∀ q ∈ r.pieces false, P q.attributeNames

/-- Without a mark, the pieces of nodes side by side are those of each by itself. -/
theorem piecesAll_none (rs : List Rose) : piecesAll none rs = rs.flatMap (pieces false) := by
  induction rs with
  | nil => rw [piecesAll, List.flatMap_nil]
  | cons r rs ih =>
    have hmark : (r.isOption && (none : Option ℕ) == some 0) = false := by simp
    rw [piecesAll, markAfter_none, ih, List.flatMap_cons, hmark]

theorem allTags_container {tag : String} {attributes : List (String × String)} {cs : List Rose}
    (hP : P []) (hvoid : voidTags.contains tag = false) (hraw : rawTags.contains tag = false) :
    AllTags P (element tag attributes none cs) ↔
      P (attributes.map (·.1)) ∧ ∀ c ∈ cs, AllTags P c := by
  have hopening : (Piece.opening tag attributes false).attributeNames = attributes.map (·.1) := rfl
  have hclosing : ∀ spread, P (Piece.closing tag spread).attributeNames := fun _ => hP
  rw [AllTags, pieces, hvoid, hraw, piecesAll_none]
  simp only [Bool.false_eq_true, if_false, List.forall_mem_cons, List.forall_mem_append, hopening,
    hclosing, List.not_mem_nil, false_implies, implies_true, and_true, List.mem_flatMap,
    forall_exists_index, and_imp, AllTags]
  exact and_congr_right fun _ => ⟨fun h c hc q hq => h q c hc hq, fun h q c hc hq => h c hc q hq⟩

/-- Texts, and options that have no attributes. -/
def IsBare (r : Rose) : Prop :=
  r.isText = true ∨ ∃ label, r = element "option" [] none [.text label]

/-- A bare node has no attribute but for the mark of a selected option. -/
theorem IsBare.forall_mem_pieces (h : r.IsBare) (hP : P []) (hselected : P ["selected"])
    (selected : Bool) : ∀ q ∈ r.pieces selected, P q.attributeNames := by
  rcases h with htext | ⟨label, rfl⟩
  · cases r with
    | document | element => cases htext
    | text s =>
      intro q hq
      rw [pieces, List.mem_singleton] at hq
      rw [hq]
      exact hP
  · intro q hq
    have hpieces : (element "option" [] none [.text label]).pieces selected =
        [.opening "option" [] selected, .text (escapeText label), .closing "option" false] := rfl
    rw [hpieces] at hq
    simp only [List.mem_cons, List.not_mem_nil, or_false] at hq
    rcases hq with rfl | rfl | rfl
    · cases selected
      · exact hP
      · exact hselected
    · exact hP
    · exact hP

/-- Above bare nodes, there are no attributes but those of the element itself. -/
theorem allTags_iff_of_isBare (hr : r.isElement = true) (h : ∀ c ∈ r.children, c.IsBare)
    (hP : P []) (hselected : P ["selected"]) : AllTags P r ↔ P r.attributeNames := by
  cases r with
  | document | text => cases hr
  | element tag attributes selectedIndex cs =>
    have hinside := forall_mem_piecesAll (Q := fun q => P q.attributeNames)
      (fun c hc => (h c hc).forall_mem_pieces hP hselected) selectedIndex
    rw [AllTags, pieces, List.forall_mem_cons]
    refine and_iff_left ?_
    split
    · simp
    · refine List.forall_mem_append.2 ⟨?_, List.forall_mem_singleton.2 hP⟩
      split
      · exact List.forall_mem_singleton.2 hP
      · exact hinside

end PageBuilder.Dom.Rose
