import Mathlib.Data.List.Basic
import PageBuilder.Markup.Render

/-!
# The forms of characters

Escaping never shortens a text, so it leaves a text as it is exactly if every character stands for
itself (`escapeText_eq_self_iff`). This rests on a fact about strings joined from parts: if the
parts of one string are no longer than those of another, the two agree only part by part
(`join_map_eq_join_map_iff`).
-/

namespace PageBuilder.Markup

/-! ## Strings joined from parts -/

section Join

variable {α : Type*} {f g : α → String} {l : List α}

theorem length_join_map_le (h : ∀ a ∈ l, (f a).length ≤ (g a).length) :
    (String.join (l.map f)).length ≤ (String.join (l.map g)).length := by
  induction l with
  | nil => exact Nat.le_refl _
  | cons a l ih =>
    have hhead := h a List.mem_cons_self
    have htail := ih fun b hb => h b (List.mem_cons_of_mem a hb)
    simp only [List.map_cons, String.join_cons, String.length_append]
    omega

/-- Strings joined from parts agree only part by part, if no part of one is longer. -/
theorem join_map_eq_join_map_iff (h : ∀ a ∈ l, (f a).length ≤ (g a).length) :
    String.join (l.map f) = String.join (l.map g) ↔ ∀ a ∈ l, f a = g a := by
  refine ⟨fun heq => ?_, fun heq => by rw [List.map_congr_left heq]⟩
  induction l with
  | nil => simp
  | cons a l ih =>
    have hhead := h a List.mem_cons_self
    have htail := fun b hb => h b (List.mem_cons_of_mem a hb)
    have hlength := length_join_map_le htail
    simp only [List.map_cons, String.join_cons] at heq
    have hsum := congrArg String.length heq
    simp only [String.length_append] at hsum
    -- the parts in front have the same length, so the two strings split at the same place
    obtain ⟨hfirst, hrest⟩ := List.append_inj
      (by simpa only [String.toList_append] using congrArg String.toList heq)
      (by simp only [String.length_toList]; omega)
    rw [List.forall_mem_cons]
    exact ⟨String.toList_inj.1 hfirst, ih htail (String.toList_inj.1 hrest)⟩

end Join

theorem join_map_singleton (cs : List Char) :
    String.join (cs.map String.singleton) = String.ofList cs := by
  induction cs with
  | nil => rfl
  | cons c cs ih =>
    rw [List.map_cons, String.join_cons, ih]
    exact String.toList_inj.1 (by simp)

/-! ## The forms of characters -/

/-- A character that stands for itself in text. -/
def IsPlain (c : Char) : Prop := c ≠ '&' ∧ c ≠ '<' ∧ c ≠ '>'

theorem textForm_of_isPlain {c : Char} (h : IsPlain c) : textForm c = String.singleton c := by
  obtain ⟨hamp, hlt, hgt⟩ := h
  rw [textForm]
  · exact hamp
  · exact hlt
  · exact hgt

theorem eq_of_not_isPlain {c : Char} (h : ¬ IsPlain c) : c = '&' ∨ c = '<' ∨ c = '>' := by
  by_contra hne
  simp only [not_or] at hne
  exact h hne

theorem textForm_eq_singleton_iff {c : Char} : textForm c = String.singleton c ↔ IsPlain c := by
  refine ⟨fun h => ?_, textForm_of_isPlain⟩
  by_contra hc
  obtain rfl | rfl | rfl := eq_of_not_isPlain hc <;> exact absurd h (by decide)

theorem valueForm_of_ne_quote {c : Char} (h : c ≠ '"') : valueForm c = textForm c := by
  rw [valueForm]
  exact h

theorem length_singleton_le_textForm (c : Char) :
    (String.singleton c).length ≤ (textForm c).length := by
  by_cases hc : IsPlain c
  · exact Nat.le_of_eq (congrArg String.length (textForm_of_isPlain hc).symm)
  · obtain rfl | rfl | rfl := eq_of_not_isPlain hc <;> decide

/-! ## Escaping -/

/-- A text is joined from its characters. -/
theorem eq_join_singleton (s : String) : s = String.join (s.toList.map String.singleton) := by
  rw [join_map_singleton, String.ofList_toList]

theorem length_le_length_escapeText (s : String) : s.length ≤ (escapeText s).length := by
  conv_lhs => rw [eq_join_singleton s]
  exact length_join_map_le fun c _ => length_singleton_le_textForm c

/-- Escaping leaves a text as it is exactly if none of its characters could be markup. -/
theorem escapeText_eq_self_iff (s : String) : s = escapeText s ↔ ∀ c ∈ s.toList, IsPlain c := by
  conv_lhs => lhs; rw [eq_join_singleton s]
  rw [escapeText, join_map_eq_join_map_iff fun c _ => length_singleton_le_textForm c]
  refine forall₂_congr fun c _ => ?_
  rw [eq_comm, textForm_eq_singleton_iff]

end PageBuilder.Markup
