import PageBuilder.Proofs.Dom.Appending
import PageBuilder.Proofs.Markup.Roses

/-!
# Appending in the markup

Appending writes links in up to three nodes, and rendering follows links from any node it is given.
What comes of one for the other is simple all the same: the markup inside the parent gets the markup
of the child at its end (`inner_append`), and only what is above the parent is rendered otherwise
than before (`outer_append`). This holds for every layout, since inner markup is made of the
children's own, none of which is indented.
-/

namespace PageBuilder.Markup

open Dom

variable {t : Tree} {n p c : NodeId}

/-- Whatever is neither the parent nor above it is rendered as before. -/
theorem outer_append (h : t.WellFormed) (hok : (t.append p c).1 = .ok c) (layout : Layout)
    (hne : n ≠ p) (habove : ¬ t.Above n p) :
    outer layout (t.append p c).2 n = outer layout t n := by
  have hview := Tree.view_append_eq h hok hne habove
  rw [outer_eq (Tree.changedAt_append h hok).wellFormed, outer_eq h, hview]

/-- **Appending in a tree is appending in its markup**: what is inside the parent gets the child at
its end, and whatever is neither the parent nor above it is rendered as before, the child and what
is below it among others. -/
theorem inner_append (ht : t.Reachable) (hok : (t.append p c).1 = .ok c) (layout : Layout) :
    inner layout (t.append p c).2 p = inner layout t p ++ outer layout t c ∧
      (∀ n, n ≠ p → ¬ t.Above n p → outer layout (t.append p c).2 n = outer layout t n) ∧
      ∀ n, n = c ∨ t.Above c n → n ≠ p ∧ ¬ t.Above n p := by
  have h := ht.wellFormed
  have hlinked := h.toWellLinked
  have hattachable := Tree.attachable_of_append_eq_ok hlinked hok
  have hchildren : (t.append p c).2.children p = t.children p ++ [c] := by
    rw [(Tree.adopts_append hlinked hok).children_eq, if_pos rfl]
  have hold : ∀ d ∈ t.children p, outer layout (t.append p c).2 d = outer layout t d := by
    intro d hd
    have hparent := hlinked.mem_children_iff.1 hd
    refine outer_append h hok layout ?_ fun hdp => ?_
    · rintro rfl
      exact hlinked.acyclic d (.single hparent)
    · exact hlinked.acyclic p (Tree.Above.trans (.single hparent) hdp)
  have hnew : outer layout (t.append p c).2 c = outer layout t c :=
    outer_append h hok layout hattachable.ne hattachable.not_above
  refine ⟨?_, fun n => outer_append h hok layout, fun n => hattachable.not_above_of_subtree⟩
  calc inner layout (t.append p c).2 p
      = String.join ((t.children p ++ [c]).map (outer layout (t.append p c).2)) := by
        rw [← hchildren]
        rfl
    _ = String.join ((t.children p).map (outer layout (t.append p c).2)) ++
          outer layout (t.append p c).2 c := by
        rw [List.map_append, String.join_append, List.map_singleton, String.join_cons,
          String.join_nil, String.append_empty]
    _ = inner layout t p ++ outer layout t c := by
        rw [List.map_congr_left hold, hnew]
        rfl

/-- The operations that make a select control with one option, and a second option beside it. -/
def secondOption : List Operation :=
  [.createElement "select", .createElement "option", .createText "a", .append ⟨2⟩ ⟨3⟩,
    .append ⟨1⟩ ⟨2⟩, .setSelectedIndex ⟨1⟩ 1, .createElement "option", .createText "b",
    .append ⟨4⟩ ⟨5⟩]

/-- A select control that gets a second option has both inside it, and the first is rendered as
before. -/
theorem inner_append_secondOption :
    (Tree.new.after secondOption).Reachable ∧
      ((Tree.new.after secondOption).append ⟨1⟩ ⟨4⟩).1 = .ok ⟨4⟩ ∧
      inner .compact ((Tree.new.after secondOption).append ⟨1⟩ ⟨4⟩).2 ⟨1⟩ =
        "<option>a</option>" ++ "<option>b</option>" ∧
      outer .compact ((Tree.new.after secondOption).append ⟨1⟩ ⟨4⟩).2 ⟨2⟩ =
        "<option>a</option>" := by
  have ht : (Tree.new.after secondOption).Reachable := Tree.Reachable.new.after secondOption
  have hok : ((Tree.new.after secondOption).append ⟨1⟩ ⟨4⟩).1 = .ok ⟨4⟩ := by decide +kernel
  have hbefore : inner .compact (Tree.new.after secondOption) ⟨1⟩ = "<option>a</option>" := by
    decide +kernel
  have hfirst : outer .compact (Tree.new.after secondOption) ⟨2⟩ = "<option>a</option>" := by
    decide +kernel
  have hchild : outer .compact (Tree.new.after secondOption) ⟨4⟩ = "<option>b</option>" := by
    decide +kernel
  obtain ⟨hinner, houter, -⟩ := inner_append ht hok .compact
  refine ⟨ht, hok, ?_, ?_⟩
  · rw [hinner, hbefore, hchild]
  · have hdetached : (Tree.new.after secondOption).parent? ⟨1⟩ = none := by decide +kernel
    rw [houter ⟨2⟩ (by decide) (Tree.not_above_of_parent?_eq_none hdetached), hfirst]

end PageBuilder.Markup
